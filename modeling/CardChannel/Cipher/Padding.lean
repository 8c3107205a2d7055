import CardChannel.Cipher.Fault

/-! Padding to whole blocks of eight bytes: a marker byte `80`, then as few zeros as complete the
block.  Data that already fill their last block gain a whole one, so that the marker can always be
found again: `unpad` looks for it from the end, over zeros, and within the last block only. -/

namespace CardChannel.Padding

def marker : UInt8 := 0x80

/-- The least multiple of eight above `length`. -/
def paddedLength (length : Nat) : Nat := (length / 8 + 1) * 8

def pad (data : List UInt8) : List UInt8 :=
  data ++ marker :: List.replicate (paddedLength data.length - data.length - 1) 0

@[simp] theorem length_pad (data : List UInt8) : (pad data).length = paddedLength data.length := by
  simp [pad, paddedLength]
  omega

theorem length_pad_mod (data : List UInt8) : (pad data).length % 8 = 0 := by
  rw [length_pad, paddedLength]
  omega

/-- What stands before the marker and its zeros, given the bytes from the last to the first. -/
def beforeMarker? (reversed : List UInt8) : Option (List UInt8) :=
  match reversed.dropWhile (· == 0) with
  | byte :: rest => if byte = marker then some rest.reverse else none
  | [] => none

theorem beforeMarker?_zero (reversed : List UInt8) :
    beforeMarker? (0 :: reversed) = beforeMarker? reversed := rfl

theorem beforeMarker?_marker (reversed : List UInt8) :
    beforeMarker? (marker :: reversed) = some reversed.reverse := rfl

theorem beforeMarker?_other {byte : UInt8} (hzero : byte ≠ 0) (hmarker : byte ≠ marker)
    (reversed : List UInt8) : beforeMarker? (byte :: reversed) = none := by
  simp [beforeMarker?, hzero, hmarker]

def unpad (padded : List UInt8) : Except Cipher.Fault (List UInt8) :=
  if padded = [] ∨ padded.length % 8 ≠ 0 then .error .paddingMisaligned
  else
    let front := padded.take (padded.length - 8)
    match beforeMarker? (padded.drop (padded.length - 8)).reverse with
    | some rest => .ok (front ++ rest)
    | none => .error .paddingInvalid

end CardChannel.Padding
