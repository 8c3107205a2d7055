import CardChannel.Octets
import CardChannel.Options
import CardChannel.Keys.KeySet
import CardChannel.Keys.SessionKey

/-! Derivation of the session keys.  Each of four usages has a constant, which is enciphered
together with the sequence counter of the card under the base key that belongs to the usage.  The
base keys may lie in a device that does not give them away: a session asks a `KeyProvider`, and a
key set is one of them. -/

namespace CardChannel

inductive KeyUsage where
  | enc
  | mac
  | dek
  | rMac
deriving DecidableEq, Repr

namespace KeyUsage

def all : List KeyUsage := [enc, mac, dek, rMac]

def name : KeyUsage → String
  | enc => "Enc"
  | mac => "Mac"
  | dek => "Dek"
  | rMac => "RMac"

/-- The two bytes that set the derivations apart. -/
def constant : KeyUsage → List UInt8
  | enc => [0x01, 0x82]
  | mac => [0x01, 0x01]
  | dek => [0x01, 0x81]
  | rMac => [0x01, 0x02]

@[simp] theorem length_constant (usage : KeyUsage) : usage.constant.length = 2 := by
  cases usage <;> rfl

end KeyUsage

/-- The identifiers of the base keys that a card derives from. -/
inductive BaseKeys where
  | single (id : UInt8)
  | three (enc mac dek : UInt8)
deriving DecidableEq, Repr

namespace BaseKeys

def keyId : BaseKeys → KeyUsage → UInt8
  | single id, _ => id
  | three enc _ _, .enc => enc
  | three _ mac _, .mac | three _ mac _, .rMac => mac
  | three _ _ dek, .dek => dek

/-- The choice that the options of a card make, under the usual identifiers. -/
def ofOptions (o : Options) : BaseKeys :=
  if o.threeBaseKeys then three KeyId.enc KeyId.mac KeyId.dek else single KeyId.enc

end BaseKeys

abbrev SequenceCounter := Octets 2

/-- The constant and the counter fill the first block with zeros after them, and the second block
is zero: chained from zero, the second result is the first one enciphered again. -/
def SessionKey.derive (base : TripleKey) (usage : KeyUsage) (counter : SequenceCounter) :
    SessionKey :=
  let left := base.encrypt (.ofList (usage.constant ++ counter.toList ++ List.replicate 4 0))
  ⟨left, base.encrypt left⟩

theorem SessionKey.length_first (usage : KeyUsage) (counter : SequenceCounter) :
    (usage.constant ++ counter.toList ++ List.replicate 4 0).length = 8 := by
  simp [counter.length_toList]

/-- Where keys come from.  Either question may fail with any error.  Who holds a base key derives
from it; who does not hold it gives the session key in another way. -/
structure KeyProvider where
  /-- The base key with an identifier and a version. -/
  lookup (id version : UInt8) : Except Error TripleKey
  /-- The session key for a usage, of the base key with an identifier and a version. -/
  sessionKey (version : UInt8) (counter : SequenceCounter) (id : UInt8) (usage : KeyUsage) :
      Except Error SessionKey := do
    return .derive (← lookup id version) usage counter

/-- A key set gives its own keys and derives from them. -/
def KeySet.provider (set : KeySet) : KeyProvider where
  lookup := set.lookup

instance : Coe KeySet KeyProvider := ⟨KeySet.provider⟩

theorem KeySet.sessionKey_provider (set : KeySet) (version : UInt8) (counter : SequenceCounter)
    (id : UInt8) (usage : KeyUsage) :
    set.provider.sessionKey version counter id usage =
      (set.lookup id version).map (SessionKey.derive · usage counter) := by
  cases h : set.lookup id version <;> simp only [provider, h] <;> rfl

structure SessionKeys where
  enc : SessionKey
  mac : SessionKey
  dek : SessionKey
  rMac : SessionKey
deriving DecidableEq, Repr

namespace SessionKeys

def get (keys : SessionKeys) : KeyUsage → SessionKey
  | .enc => keys.enc
  | .mac => keys.mac
  | .dek => keys.dek
  | .rMac => keys.rMac

def derive (provider : KeyProvider) (base : BaseKeys) (keyVersion : UInt8)
    (counter : SequenceCounter) : Except Error SessionKeys := do
  let key (usage : KeyUsage) := provider.sessionKey keyVersion counter (base.keyId usage) usage
  return ⟨← key .enc, ← key .mac, ← key .dek, ← key .rMac⟩

def inspect (keys : SessionKeys) : String :=
  Inspect.record "SessionKeys"
    [("enc", keys.enc.inspect), ("mac", keys.mac.inspect), ("dek", keys.dek.inspect),
      ("rmac", keys.rMac.inspect)]

end SessionKeys

end CardChannel
