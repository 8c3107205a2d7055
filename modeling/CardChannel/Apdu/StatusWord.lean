import CardChannel.Hex
import CardChannel.Inspect

/-! The two-byte status that ends every answer of a card. -/

namespace CardChannel

structure StatusWord where
  sw1 : UInt8
  sw2 : UInt8
deriving DecidableEq, Repr, Inhabited

namespace StatusWord

def ofUInt16 (word : UInt16) : StatusWord := ⟨(word >>> 8).toUInt8, word.toUInt8⟩

def toUInt16 (status : StatusWord) : UInt16 := status.sw1.toUInt16 <<< 8 ||| status.sw2.toUInt16

def toBytes (status : StatusWord) : List UInt8 := [status.sw1, status.sw2]

@[simp] theorem length_toBytes (status : StatusWord) : status.toBytes.length = 2 := rfl

theorem toBytes_inj {a b : StatusWord} : a.toBytes = b.toBytes ↔ a = b := by
  cases a
  cases b
  simp [toBytes]

def success : StatusWord := ⟨0x90, 0x00⟩

def hostCryptogramFailed : StatusWord := ⟨0x63, 0x00⟩

def securityNotSatisfied : StatusWord := ⟨0x69, 0x82⟩

def authenticationBlocked : StatusWord := ⟨0x69, 0x83⟩

def referencedDataNotFound : StatusWord := ⟨0x6A, 0x88⟩

def isSuccess (status : StatusWord) : Bool := status == success

/-- Four upper-case digits, such as `6A88`. -/
def text (status : StatusWord) : String := Hex.encodeUpper status.toBytes

def description (status : StatusWord) : String :=
  match status.sw1.toNat, status.sw2.toNat with
  | 0x90, 0x00 => "Success"
  | 0x61, _ => "More data available"
  | 0x63, 0x00 => "Authentication of host cryptogram failed"
  | 0x63, low => if low / 16 = 0xC then "Retry counter" else "Unknown status word"
  | 0x67, 0x00 => "Wrong length"
  | 0x68, 0x82 => "Secure messaging not supported"
  | 0x69, 0x82 => "Security status not satisfied"
  | 0x69, 0x83 => "Authentication method blocked"
  | 0x69, 0x85 => "Conditions of use not satisfied"
  | 0x69, 0x88 => "SM data objects incorrect"
  | 0x6A, 0x86 => "Incorrect parameters P1-P2"
  | 0x6A, 0x88 => "Referenced data not found"
  | 0x6D, 0x00 => "Instruction code not supported or invalid"
  | 0x6E, 0x00 => "Class not supported"
  | _, _ => "Unknown status word"

def inspect (status : StatusWord) : String :=
  Inspect.record "StatusWord"
    [("sw1", toString status.sw1.toNat), ("sw2", toString status.sw2.toNat)]

end StatusWord

end CardChannel
