import CardChannel.Keys.Derivation

/-! What the host chooses for its sessions. -/

namespace CardChannel

/-- The largest data field of a short command. -/
def maxShortData : Nat := 255

structure Config where
  /-- The largest data field that the card accepts. -/
  maxData : Nat
  /-- The key version asked of the card. -/
  keyVersion : UInt8
  /-- Options that take the place of those that the card advertises. -/
  options : Option Options
  singleKeyId : UInt8
  encKeyId : UInt8
  macKeyId : UInt8
  dekKeyId : UInt8
deriving DecidableEq, Repr

namespace Config

def default : Config :=
  ⟨maxShortData, anyKeyVersion, none, KeyId.enc, KeyId.enc, KeyId.mac, KeyId.dek⟩

def invalidMaxData : Error :=
  .invalidConfig "max APDU data length must be between 17 and 255"

/-- There must be room for one byte beside a MAC and encryption padding. -/
def validate (config : Config) : Except Error Unit :=
  if 16 < config.maxData ∧ config.maxData ≤ maxShortData then .ok () else .error invalidMaxData

def baseKeys (config : Config) (o : Options) : BaseKeys :=
  if o.threeBaseKeys then .three config.encKeyId config.macKeyId config.dekKeyId
  else .single config.singleKeyId

end Config

end CardChannel
