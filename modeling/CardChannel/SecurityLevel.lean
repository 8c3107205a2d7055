import CardChannel.Error

/-! Security levels: which protections a channel applies to commands and to responses.  A level is
sent to the card as one byte, of which four bits are defined.  `validate` is the rule that
encryption is never applied without the MAC of the same direction. -/

namespace CardChannel

structure SecurityLevel where
  cMac : Bool
  cDecryption : Bool
  rMac : Bool
  rDecryption : Bool
deriving DecidableEq, Repr

namespace SecurityLevel

def none : SecurityLevel := ⟨false, false, false, false⟩

/-- The level of EXTERNAL AUTHENTICATE itself, which carries a MAC whatever level it asks for. -/
def cMacOnly : SecurityLevel := ⟨true, false, false, false⟩

def flag (bit : UInt8) (isSet : Bool) : UInt8 := if isSet then bit else 0

def bits (level : SecurityLevel) : UInt8 :=
  flag 0x01 level.cMac ||| flag 0x02 level.cDecryption ||| flag 0x10 level.rMac |||
    flag 0x20 level.rDecryption

def undefinedBits : Error := .invalidSecurityLevel "undefined security level bits"

def ofBits (bits : UInt8) : Except Error SecurityLevel :=
  if bits &&& 0xCC = 0 then
    .ok ⟨bits &&& 0x01 != 0, bits &&& 0x02 != 0, bits &&& 0x10 != 0, bits &&& 0x20 != 0⟩
  else .error undefinedBits

def union (a b : SecurityLevel) : SecurityLevel :=
  ⟨a.cMac || b.cMac, a.cDecryption || b.cDecryption, a.rMac || b.rMac,
    a.rDecryption || b.rDecryption⟩

/-- Every protection of `b` is one of `a`. -/
def contains (a b : SecurityLevel) : Bool := a.union b == a

def isEmpty (level : SecurityLevel) : Bool := level == none

def validate (level : SecurityLevel) : Except Error Unit :=
  if level.cDecryption && !level.cMac then
    .error (.invalidSecurityLevel "C_DECRYPTION must be combined with C_MAC")
  else if level.rDecryption && !level.rMac then
    .error (.invalidSecurityLevel "R_DECRYPTION must be combined with R_MAC")
  else .ok ()

def names (level : SecurityLevel) : List String :=
  [(level.cMac, "C_MAC"), (level.cDecryption, "C_DECRYPTION"), (level.rMac, "R_MAC"),
    (level.rDecryption, "R_DECRYPTION")].filterMap fun (isSet, name) =>
      if isSet then some name else .none

def text (level : SecurityLevel) : String :=
  if level.isEmpty then "NONE" else "|".intercalate level.names

def inspect (level : SecurityLevel) : String := "SecurityLevel(" ++ level.text ++ ")"

theorem ofBits_bits (level : SecurityLevel) : ofBits level.bits = .ok level := by
  obtain ⟨a, b, c, d⟩ := level
  cases a <;> cases b <;> cases c <;> cases d <;> rfl

end SecurityLevel

end CardChannel
