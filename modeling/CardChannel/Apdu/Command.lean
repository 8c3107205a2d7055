import CardChannel.Apdu.Error

/-! Short command APDUs.  A command is a header of four bytes, then optionally a data field led by
its length, then optionally the expected length of the answer.  `toBytes` writes a command and
`ofBytes` reads one.  A data field that is present but empty can be written, as a length byte of
zero, but is not read back: of the byte strings, `ofBytes` takes those whose data field is either
absent or not empty. -/

namespace CardChannel

structure Command where
  cla : UInt8
  ins : UInt8
  p1 : UInt8
  p2 : UInt8
  data : Option (List UInt8)
  le : Option UInt8
deriving DecidableEq, Repr

namespace Command

def header (c : Command) : List UInt8 := [c.cla, c.ins, c.p1, c.p2]

@[simp] theorem length_header (c : Command) : c.header.length = 4 := rfl

/-- The bytes of the data field, none when it is absent. -/
def payload (c : Command) : List UInt8 := c.data.getD []

/-- The data field as it is written, led by its length. -/
def dataField : Option (List UInt8) → List UInt8
  | none => []
  | some data => UInt8.ofNat data.length :: data

/-- The number of bytes that writing the command takes. -/
def length (c : Command) : Nat :=
  4 + (c.data.elim 0 fun data => 1 + data.length) + (c.le.elim 0 fun _ => 1)

def toBytes (c : Command) : Except ApduError (List UInt8) :=
  if c.payload.length ≤ 255 then .ok (c.header ++ dataField c.data ++ c.le.toList)
  else .error (.dataTooLong c.payload.length)

def ofBytes (bytes : List UInt8) : Except ApduError Command :=
  match bytes with
  | [cla, ins, p1, p2] => .ok ⟨cla, ins, p1, p2, none, none⟩
  | [cla, ins, p1, p2, le] => .ok ⟨cla, ins, p1, p2, none, some le⟩
  | cla :: ins :: p1 :: p2 :: lc :: body =>
    if lc = 0 ∨ body.length < lc.toNat then .error (.invalidCommandLength bytes.length)
    else match body.drop lc.toNat with
      | [] => .ok ⟨cla, ins, p1, p2, some body, none⟩
      | [le] => .ok ⟨cla, ins, p1, p2, some (body.take lc.toNat), some le⟩
      | _ => .error (.invalidCommandLength bytes.length)
  | _ => .error (.invalidCommandLength bytes.length)

theorem length_toBytes {c : Command} {bytes : List UInt8} (h : c.toBytes = .ok bytes) :
    bytes.length = c.length := by
  unfold toBytes at h
  split at h
  · cases h
    obtain ⟨_, _, _, _, data, le⟩ := c
    cases data <;> cases le <;> simp [dataField, length, header] <;> omega
  · contradiction

end Command

end CardChannel
