/-! Hexadecimal text.  `encode` writes two digits a byte, in lower or in upper case; `decode` reads
both cases.  A text of odd length is refused before its characters are looked at, and otherwise the
first character that is no digit is reported.  Both length and position count the bytes of the
text's encoding, so a character outside ASCII is reported by its first byte. -/

namespace CardChannel.Hex

inductive Fault where
  | oddLength
  | invalidCharacter (byte : UInt8) (index : Nat)
deriving DecidableEq, Repr

/-- The case of the digits above nine. -/
inductive Case where
  | lower
  | upper
deriving DecidableEq

def digit (letters : Case) (value : UInt8) : Char :=
  let offset := if value < 10 then 48 else match letters with
    | .lower => 87
    | .upper => 55
  Char.ofNat (value + offset).toNat

def digits (letters : Case) (byte : UInt8) : List Char :=
  [digit letters (byte / 16), digit letters (byte % 16)]

def encode (bytes : List UInt8) : String := String.ofList (bytes.flatMap (digits .lower))

def encodeUpper (bytes : List UInt8) : String := String.ofList (bytes.flatMap (digits .upper))

/-- A byte as `0x` and two digits. -/
def literal (byte : UInt8) : String := "0x" ++ encode [byte]

/-- The value of a digit, given by its ASCII code. -/
def value? (code : UInt8) : Option UInt8 :=
  if 48 ≤ code ∧ code ≤ 57 then some (code - 48)
  else if 65 ≤ code ∧ code ≤ 70 then some (code - 55)
  else if 97 ≤ code ∧ code ≤ 102 then some (code - 87)
  else none

def valueAt (code : UInt8) (index : Nat) : Except Fault UInt8 :=
  match value? code with
  | some value => .ok value
  | none => .error (.invalidCharacter code index)

/-- The bytes written by pairs of digits, of which the first stands at position `index`. -/
def decodePairs (index : Nat) : List UInt8 → Except Fault (List UInt8)
  | high :: low :: rest => do
    let h ← valueAt high index
    let l ← valueAt low (index + 1)
    let bytes ← decodePairs (index + 2) rest
    return (h * 16 + l) :: bytes
  | _ => .ok []

def decode (text : String) : Except Fault (List UInt8) :=
  let codes := text.toUTF8.toList
  if codes.length % 2 = 0 then decodePairs 0 codes else .error .oddLength

end CardChannel.Hex
