import Mathlib.Data.List.Induction
import Mathlib.Order.Bounds.Defs
import CardChannel.Proofs.Padding

/-! Padding by position.  Here byte strings are cut and written between positions that are computed
from their lengths, and each cut, each copy and each difference of two lengths fails if it would
leave the string.  A single block is padded by a scheme, of which no more is known than what it
writes and by which steps it looks for that again (`Iso7816`).  Under every such scheme no position
ever leaves the string: `pad` and `unpad` are the functions of the same name that take the string as
a whole (`pad_eq`, `unpad_eq`), and each is the inverse of the other (`unpad_inverts_pad`). -/

namespace CardChannel.Stepwise

open Cipher

/-! ### Byte strings by position -/

/-- The difference of two lengths. -/
def sub? (a b : Nat) : Option Nat := if b ≤ a then some (a - b) else none

/-- The bytes from `start` on that stand before `stop`. -/
def slice? (bytes : List UInt8) (start stop : Nat) : Option (List UInt8) :=
  if start ≤ stop ∧ stop ≤ bytes.length then some ((bytes.drop start).take (stop - start))
  else none

/-- `bytes` with `change` made to those from `start` on that stand before `stop`. -/
def modify? (bytes : List UInt8) (start stop : Nat)
    (change : List UInt8 → Option (List UInt8)) : Option (List UInt8) := do
  let part ← slice? bytes start stop
  let changed ← change part
  return bytes.take start ++ changed ++ bytes.drop stop

/-- `data` copied over as many bytes. -/
def copy? (data part : List UInt8) : Option (List UInt8) :=
  if part.length = data.length then some data else none

/-- The least multiple of `unit` that is not below `n`. -/
def nextMultiple (n unit : Nat) : Nat :=
  if n % unit = 0 then n else n + (unit - n % unit)

/-! ### Padding -/

/-- How a single block is padded.  `write` puts padding into a block from a position on, and fails
if the block has no such position.  `find` gives the bytes before the padding, and fails if there is
none. -/
structure BlockScheme where
  write : List UInt8 → Nat → Option (List UInt8)
  find : List UInt8 → Option (List UInt8)

/-- A marker is written, and zeros after it.  It is found from the end, by going over zeros; any
other byte is refused, and so is a block without a marker. -/
structure BlockScheme.Iso7816 (scheme : BlockScheme) : Prop where
  writes {block : List UInt8} {position : Nat} (inside : position < block.length) :
    scheme.write block position =
      some (block.take position ++ 0x80 :: List.replicate (block.length - position - 1) 0)
  skips (front : List UInt8) : scheme.find (front ++ [0x00]) = scheme.find front
  stops (front : List UInt8) : scheme.find (front ++ [0x80]) = some front
  refuses {byte : UInt8} (front : List UInt8) (notZero : byte ≠ 0x00) (notMarker : byte ≠ 0x80) :
    scheme.find (front ++ [byte]) = none
  exhausted : scheme.find [] = none

-- Sums of lengths are not checked.  A string in memory has fewer than half as many bytes as a
-- machine word has values, so that every sum here fits into one.
def paddedLength (length : Nat) : Nat := nextMultiple (length + 1) 8

def pad (scheme : BlockScheme) (data : List UInt8) : Option (List UInt8) := do
  let zeros := List.replicate (paddedLength data.length) 0
  let out ← modify? zeros 0 data.length (copy? data)
  let lastBlock ← sub? out.length 8
  let position ← sub? data.length lastBlock
  modify? out lastBlock out.length (scheme.write · position)

def unpad (scheme : BlockScheme) (padded : List UInt8) :
    Option (Except Fault (List UInt8)) :=
  if padded = [] ∨ padded.length % 8 ≠ 0 then some (.error .paddingMisaligned)
  else do
    let lastBlock ← sub? padded.length 8
    let block ← slice? padded lastBlock padded.length
    match scheme.find block with
    | some kept => return .ok (← slice? padded 0 (lastBlock + kept.length))
    | none => return .error .paddingInvalid

variable {scheme : BlockScheme} {bytes front part back changed : List UInt8} {start stop : Nat}

/-! ### Positions are in range -/

theorem sub?_add (a b : Nat) : sub? (a + b) b = some a := by
  rw [sub?, if_pos (Nat.le_add_left b a), Nat.add_sub_cancel]

theorem slice?_of_eq (hbytes : bytes = front ++ part ++ back) (hstart : front.length = start)
    (hstop : start + part.length = stop) : slice? bytes start stop = some part := by
  subst hbytes hstart hstop
  have hrange : front.length ≤ front.length + part.length ∧
      front.length + part.length ≤ (front ++ part ++ back).length := by
    simp
  rw [slice?, if_pos hrange, List.append_assoc, List.drop_left, Nat.add_sub_cancel_left,
    List.take_left]

theorem modify?_of_eq {change : List UInt8 → Option (List UInt8)}
    (hbytes : bytes = front ++ part ++ back) (hstart : front.length = start)
    (hstop : start + part.length = stop) (hchange : change part = some changed) :
    modify? bytes start stop change = some (front ++ changed ++ back) := by
  have hslice := slice?_of_eq hbytes hstart hstop
  subst hbytes hstart hstop
  have htake : (front ++ part ++ back).take front.length = front := by
    rw [List.append_assoc, List.take_left]
  have hdrop : (front ++ part ++ back).drop (front.length + part.length) = back := by
    rw [← List.length_append, List.drop_left]
  rw [modify?, hslice]
  simp only [bind, Option.bind, hchange, htake, hdrop]
  rfl

/-- Data that are copied over zeros, to the front of them. -/
theorem modify?_replicate (data : List UInt8) (more : Nat) :
    modify? (List.replicate (data.length + more) 0) 0 data.length (copy? data) =
      some (data ++ List.replicate more 0) := by
  have hparts : List.replicate (data.length + more) (0 : UInt8) =
      [] ++ List.replicate data.length 0 ++ List.replicate more 0 := by
    rw [List.nil_append, List.replicate_append_replicate]
  have hcopy : copy? data (List.replicate data.length 0) = some data := by
    rw [copy?, if_pos List.length_replicate]
  refine modify?_of_eq hparts rfl ?_ hcopy
  rw [List.length_replicate, Nat.zero_add]

/-! ### The length -/

theorem isLeast_paddedLength (length : Nat) :
    IsLeast {n | 8 ∣ n ∧ length < n} (paddedLength length) := by
  unfold paddedLength nextMultiple
  refine ⟨⟨?_, ?_⟩, ?_⟩
  · split <;> omega
  · split <;> omega
  · rintro n ⟨hdvd, hlt⟩
    split <;> omega

theorem paddedLength_eq (length : Nat) : paddedLength length = Padding.paddedLength length := by
  unfold paddedLength nextMultiple Padding.paddedLength
  split <;> omega

/-! ### The scheme -/

/-- Written after `rest`, over zeros. -/
theorem BlockScheme.Iso7816.write_replicate (iso : scheme.Iso7816) (rest : List UInt8)
    (more : Nat) :
    scheme.write (rest ++ List.replicate (more + 1) 0) rest.length =
      some (rest ++ 0x80 :: List.replicate more 0) := by
  rw [iso.writes (by simp), List.take_left]
  simp

theorem BlockScheme.Iso7816.find_eq (iso : scheme.Iso7816) (block : List UInt8) :
    scheme.find block = Padding.beforeMarker? block.reverse := by
  induction block using List.reverseRecOn with
  | nil => exact iso.exhausted
  | append_singleton front byte ih =>
    rw [List.reverse_concat]
    by_cases hzero : byte = 0
    · rw [hzero, iso.skips, ih, Padding.beforeMarker?_zero]
    · by_cases hmarker : byte = Padding.marker
      · rw [hmarker, Padding.beforeMarker?_marker, List.reverse_reverse]
        exact iso.stops front
      · rw [Padding.beforeMarker?_other hzero hmarker]
        exact iso.refuses front hzero hmarker

/-! ### The functions are the same -/

theorem pad_eq (iso : scheme.Iso7816) (data : List UInt8) :
    pad scheme data = some (Padding.pad data) := by
  obtain ⟨whole, rest, zeros, rfl, hwhole, hzeros⟩ := Padding.exists_eq_append_rest data
  have hlength : paddedLength (whole ++ rest).length = (whole ++ rest).length + (zeros + 1) := by
    rw [paddedLength_eq, Padding.paddedLength, List.length_append]
    omega
  have hout : (whole ++ rest ++ List.replicate (zeros + 1) (0 : UInt8)).length =
      whole.length + 8 := by
    rw [List.length_append, List.length_append, List.length_replicate, Nat.add_assoc, hzeros]
  have hposition : sub? (whole ++ rest).length whole.length = some rest.length := by
    rw [List.length_append, Nat.add_comm, sub?_add]
  have hblock : modify? (whole ++ rest ++ List.replicate (zeros + 1) 0) whole.length
      (whole.length + 8) (scheme.write · rest.length) =
        some (whole ++ (rest ++ 0x80 :: List.replicate zeros 0) ++ []) := by
    refine modify?_of_eq ?_ rfl ?_ (iso.write_replicate rest zeros)
    · rw [List.append_nil, List.append_assoc]
    · rw [List.length_append, List.length_replicate, hzeros]
  rw [Padding.pad_append hwhole hzeros, pad, hlength, modify?_replicate]
  simp only [bind, Option.bind, hout, sub?_add, hposition, hblock, List.append_nil]

theorem unpad_eq (iso : scheme.Iso7816) (padded : List UInt8) :
    unpad scheme padded = some (Padding.unpad padded) := by
  by_cases hmis : padded = [] ∨ padded.length % 8 ≠ 0
  · rw [unpad, if_pos hmis, Padding.unpad_eq_misaligned_iff.mpr hmis]
  · obtain ⟨hne, hmod⟩ := not_or.mp hmis
    obtain ⟨front, block, rfl, hf, hb⟩ := Padding.exists_eq_append hne (not_not.mp hmod)
    have hlength : (front ++ block).length = front.length + 8 := by
      rw [List.length_append, hb]
    have hblock : slice? (front ++ block) front.length (front.length + 8) = some block :=
      slice?_of_eq (List.append_nil _).symm rfl (by rw [hb])
    rw [unpad, if_neg hmis, Padding.unpad_append hf hb, hlength, sub?_add]
    simp only [bind, Option.bind, hblock, iso.find_eq]
    cases hkept : Padding.beforeMarker? block.reverse with
    | none => rfl
    | some kept =>
      obtain ⟨zeros, rfl⟩ := Padding.beforeMarker?_eq_some_iff.mp hkept
      have hparts : front ++ (kept ++ Padding.marker :: List.replicate zeros 0) =
          [] ++ (front ++ kept) ++ Padding.marker :: List.replicate zeros 0 := by
        rw [List.nil_append, List.append_assoc]
      have hdata : slice? (front ++ (kept ++ Padding.marker :: List.replicate zeros 0)) 0
          (front.length + kept.length) = some (front ++ kept) :=
        slice?_of_eq hparts rfl (by rw [Nat.zero_add, List.length_append])
      simp only [hdata]
      rfl

/-- Under every scheme that pads a block as ISO 7816-4 says, `padded` is unpadded to `data` exactly
if `data` are padded to `padded`.  So no two data are padded alike; padded data are as long as the
least multiple of eight above the length of the data; and what is accepted is what is `WellPadded`,
whatever bytes stand before its last marker. -/
theorem unpad_inverts_pad (iso : scheme.Iso7816) (padded data : List UInt8) :
    (unpad scheme padded = some (.ok data) ↔ pad scheme data = some padded) ∧
    (∀ other, pad scheme other = pad scheme data ↔ other = data) ∧
    (Padding.pad data).length = paddedLength data.length ∧
    IsLeast {n | 8 ∣ n ∧ data.length < n} (paddedLength data.length) ∧
    ((∃ kept, unpad scheme padded = some (.ok kept)) ↔ Padding.WellPadded padded) ∧
    pad scheme data = some (Padding.pad data) ∧
    unpad scheme padded = some (Padding.unpad padded) := by
  have hpad := pad_eq iso data
  have hunpad := unpad_eq iso padded
  have hlength : (Padding.pad data).length = paddedLength data.length := by
    rw [Padding.length_pad, paddedLength_eq]
  refine ⟨?_, fun other => ?_, hlength, isLeast_paddedLength _, ?_, hpad, hunpad⟩
  · rw [hunpad, hpad, Option.some.injEq, Option.some.injEq, Padding.unpad_eq_ok_iff, eq_comm]
  · rw [pad_eq iso, hpad, Option.some.injEq, Padding.pad_inj]
  · simp only [hunpad, Option.some.injEq]
    exact Padding.exists_unpad_iff

section Sample

/-- The scheme by which `Padding.pad` and `Padding.unpad` treat a block. -/
def BlockScheme.standard : BlockScheme where
  write block position :=
    if position < block.length then
      some (block.take position ++ 0x80 :: List.replicate (block.length - position - 1) 0)
    else none
  find block := Padding.beforeMarker? block.reverse

theorem BlockScheme.iso7816_standard : standard.Iso7816 where
  writes inside := if_pos inside
  skips front := by
    dsimp only [standard]
    rw [List.reverse_concat, Padding.beforeMarker?_zero]
  stops front := by
    dsimp only [standard]
    rw [List.reverse_concat, ← Padding.marker, Padding.beforeMarker?_marker, List.reverse_reverse]
  refuses front notZero notMarker := by
    dsimp only [standard]
    rw [List.reverse_concat, Padding.beforeMarker?_other notZero notMarker]
  exhausted := rfl

/-- Data that fill their block, with a marker inside and another one, followed by zeros, at the
end. -/
def sampleData : List UInt8 := [0x4F, 0x80, 0x07, 0x00, 0x01, 0x80, 0x00, 0x00]

/-- Only the padding that was added is taken away. -/
theorem unpad_inverts_pad_sample :
    BlockScheme.standard.Iso7816 ∧
    pad .standard sampleData = some (sampleData ++ [0x80, 0, 0, 0, 0, 0, 0, 0]) ∧
    unpad .standard (sampleData ++ [0x80, 0, 0, 0, 0, 0, 0, 0]) = some (.ok sampleData) ∧
    IsLeast {n | 8 ∣ n ∧ 8 < n} 16 ∧
    Padding.WellPadded (sampleData ++ [0x80, 0, 0, 0, 0, 0, 0, 0]) := by
  have hpad : pad .standard sampleData = some (sampleData ++ [0x80, 0, 0, 0, 0, 0, 0, 0]) := by
    decide
  obtain ⟨hinverse, -, -, hleast, haccepts, -⟩ := unpad_inverts_pad BlockScheme.iso7816_standard
    (sampleData ++ [0x80, 0, 0, 0, 0, 0, 0, 0]) sampleData
  have hunpad := hinverse.mpr hpad
  exact ⟨BlockScheme.iso7816_standard, hpad, hunpad, hleast, haccepts.mp ⟨sampleData, hunpad⟩⟩

/-- Zeros without a marker before them. -/
example : unpad .standard [0x4F, 0, 0, 0, 0, 0, 0, 0] = some (.error .paddingInvalid) := by decide

end Sample

end CardChannel.Stepwise
