import Mathlib.Data.List.TakeWhile
import CardChannel.Cipher.Padding

/-! What counts as padded data.  `Completes` is the rule: the data, a marker, and as few zeros as
fill the last block.  `pad` writes what the rule says, and `unpad` takes nothing else:
`completes_iff` and `unpad_eq_ok_iff`.  Of data in whole blocks only the last block decides whether
they are padded, by how it ends: `exists_unpad_iff`. -/

namespace CardChannel.Padding

variable {data padded front block kept : List UInt8}

/-- The data, the marker, and as few zeros as fill the last block. -/
inductive Completes (data : List UInt8) : List UInt8 → Prop where
  | intro {zeros : Nat} (few : zeros < 8) (aligned : (data.length + 1 + zeros) % 8 = 0) :
      Completes data (data ++ 0x80 :: List.replicate zeros 0)

/-- A marker in the block, with nothing but zeros after it. -/
def Marked (block : List UInt8) : Prop :=
  ∃ kept zeros, block = kept ++ 0x80 :: List.replicate zeros 0

theorem completes_pad (data : List UInt8) : Completes data (pad data) := by
  have hzeros : paddedLength data.length - data.length - 1 < 8 ∧
      (data.length + 1 + (paddedLength data.length - data.length - 1)) % 8 = 0 := by
    rw [paddedLength]
    omega
  exact .intro hzeros.1 hzeros.2

theorem completes_iff : Completes data padded ↔ padded = pad data := by
  constructor
  · rintro @⟨zeros, few, aligned⟩
    obtain rfl : zeros = paddedLength data.length - data.length - 1 := by
      rw [paddedLength]
      omega
    rfl
  · rintro rfl
    exact completes_pad data

/-- The padding as it is found from the end. -/
theorem beforeMarker?_zeros (data : List UInt8) (zeros : Nat) :
    beforeMarker? (data ++ marker :: List.replicate zeros 0).reverse = some data := by
  rw [List.reverse_append, List.reverse_cons, List.reverse_replicate, List.append_assoc,
    List.singleton_append]
  induction zeros with
  | zero => exact congrArg some data.reverse_reverse
  | succ zeros ih => rw [List.replicate_succ, List.cons_append, beforeMarker?_zero, ih]

/-- The zeros at the end of a block are what is skipped in looking for its marker. -/
theorem exists_zeros (block : List UInt8) :
    ∃ zeros, block = (block.reverse.dropWhile (· == 0)).reverse ++ List.replicate zeros 0 := by
  have hzeros : ∃ zeros, block.reverse.takeWhile (· == 0) = List.replicate zeros 0 :=
    ⟨_, List.eq_replicate_of_mem fun byte hmem => by simpa using List.mem_takeWhile_imp hmem⟩
  obtain ⟨zeros, hzeros⟩ := hzeros
  have hblock := List.takeWhile_append_dropWhile (p := (· == 0)) (l := block.reverse)
  refine ⟨zeros, ?_⟩
  rw [← List.reverse_replicate, ← hzeros, ← List.reverse_append, hblock, List.reverse_reverse]

/-- The marker is the last byte that is not zero. -/
theorem beforeMarker?_eq_some_iff :
    beforeMarker? block.reverse = some kept ↔
      ∃ zeros, block = kept ++ marker :: List.replicate zeros 0 := by
  constructor
  · intro h
    obtain ⟨zeros, hblock⟩ := exists_zeros block
    unfold beforeMarker? at h
    split at h
    · rename_i byte rest hdrop
      split at h
      · rename_i hbyte
        cases h
        rw [hdrop, hbyte, List.reverse_cons, List.append_assoc, List.singleton_append] at hblock
        exact ⟨zeros, hblock⟩
      · cases h
    · cases h
  · rintro ⟨zeros, rfl⟩
    exact beforeMarker?_zeros kept zeros

theorem marked_iff : Marked block ↔ ∃ kept, beforeMarker? block.reverse = some kept := by
  simp only [beforeMarker?_eq_some_iff]
  rfl

/-! ### The last block decides -/

/-- Data in whole blocks, and less than a block more, with the zeros that are wanting. -/
theorem exists_eq_append_rest (data : List UInt8) :
    ∃ front kept zeros, data = front ++ kept ∧ front.length % 8 = 0 ∧
      kept.length + (zeros + 1) = 8 := by
  refine ⟨_, data.drop (data.length / 8 * 8), 7 - data.length % 8,
    (List.take_append_drop (data.length / 8 * 8) data).symm, ?_, ?_⟩
  · rw [List.length_take]
    omega
  · rw [List.length_drop]
    omega

/-- Whole blocks stay as they are, and the rest is completed. -/
theorem pad_append {zeros : Nat} (hf : front.length % 8 = 0)
    (hzeros : kept.length + (zeros + 1) = 8) :
    pad (front ++ kept) = front ++ (kept ++ 0x80 :: List.replicate zeros 0) := by
  rw [← List.append_assoc]
  refine (completes_iff.mp (.intro (by omega) ?_)).symm
  rw [List.length_append]
  omega

theorem unpad_append (hf : front.length % 8 = 0) (hb : block.length = 8) :
    unpad (front ++ block) =
      (beforeMarker? block.reverse).elim (.error .paddingInvalid)
        fun kept => .ok (front ++ kept) := by
  have hlen : (front ++ block).length - 8 = front.length := by
    rw [List.length_append, hb, Nat.add_sub_cancel]
  have haligned : ¬ (front ++ block = [] ∨ (front ++ block).length % 8 ≠ 0) := by
    rintro (hnil | hmod)
    · rw [(List.append_eq_nil_iff.mp hnil).2] at hb
      cases hb
    · rw [List.length_append] at hmod
      omega
  rw [unpad, if_neg haligned]
  simp only [hlen, List.take_left, List.drop_left]
  cases beforeMarker? block.reverse <;> rfl

theorem exists_unpad_append_iff (hf : front.length % 8 = 0) (hb : block.length = 8) :
    (∃ data, unpad (front ++ block) = .ok data) ↔ Marked block := by
  rw [marked_iff, unpad_append hf hb]
  cases beforeMarker? block.reverse <;> simp

theorem unpad_append_eq_invalid_iff (hf : front.length % 8 = 0) (hb : block.length = 8) :
    unpad (front ++ block) = .error .paddingInvalid ↔ ¬ Marked block := by
  rw [marked_iff, unpad_append hf hb]
  cases beforeMarker? block.reverse <;> simp

/-! ### All of it -/

theorem unpad_pad (data : List UInt8) : unpad (pad data) = .ok data := by
  obtain ⟨front, kept, zeros, rfl, hf, hzeros⟩ := exists_eq_append_rest data
  have hb : (kept ++ 0x80 :: List.replicate zeros 0).length = 8 := by
    rw [List.length_append, List.length_cons, List.length_replicate, hzeros]
  have hkept : beforeMarker? (kept ++ 0x80 :: List.replicate zeros 0).reverse = some kept :=
    beforeMarker?_zeros kept zeros
  rw [pad_append hf hzeros, unpad_append hf hb, hkept]
  rfl

theorem pad_inj {a b : List UInt8} : pad a = pad b ↔ a = b := by
  refine ⟨fun h => ?_, congrArg pad⟩
  have hunpad := unpad_pad a
  rw [h, unpad_pad] at hunpad
  exact (Except.ok.inj hunpad).symm

theorem unpad_eq_misaligned_iff :
    unpad padded = .error .paddingMisaligned ↔ padded = [] ∨ padded.length % 8 ≠ 0 := by
  rw [unpad]
  split
  · rename_i h
    exact ⟨fun _ => h, fun _ => rfl⟩
  · rename_i h
    refine ⟨fun heq => ?_, fun heq => absurd heq h⟩
    dsimp only at heq
    split at heq <;> cases heq

/-- Padded data in whole blocks have a last one. -/
theorem exists_eq_append (hne : padded ≠ []) (hmod : padded.length % 8 = 0) :
    ∃ front block, padded = front ++ block ∧ front.length % 8 = 0 ∧ block.length = 8 := by
  have hpos := List.length_pos_iff.mpr hne
  refine ⟨_, _, (List.take_append_drop (padded.length - 8) padded).symm, ?_, ?_⟩
  · rw [List.length_take]
    omega
  · rw [List.length_drop]
    omega

/-- What is accepted is whole blocks, and not none. -/
theorem aligned_of_unpad (h : unpad padded = .ok data) : padded ≠ [] ∧ padded.length % 8 = 0 := by
  have haligned : ¬ (padded = [] ∨ padded.length % 8 ≠ 0) := by
    intro hmis
    rw [unpad_eq_misaligned_iff.mpr hmis] at h
    cases h
  obtain ⟨hne, hmod⟩ := not_or.mp haligned
  exact ⟨hne, not_not.mp hmod⟩

theorem eq_pad_of_unpad (h : unpad padded = .ok data) : padded = pad data := by
  obtain ⟨hne, hmod⟩ := aligned_of_unpad h
  obtain ⟨front, block, rfl, hf, hb⟩ := exists_eq_append hne hmod
  rw [unpad_append hf hb] at h
  cases hkept : beforeMarker? block.reverse with
  | none =>
    rw [hkept] at h
    cases h
  | some kept =>
    rw [hkept] at h
    cases h
    obtain ⟨zeros, rfl⟩ := beforeMarker?_eq_some_iff.mp hkept
    rw [List.length_append, List.length_cons, List.length_replicate] at hb
    exact (pad_append hf hb).symm

/-- Nothing but padded data is taken for padded data. -/
theorem unpad_eq_ok_iff : unpad padded = .ok data ↔ padded = pad data :=
  ⟨eq_pad_of_unpad, fun h => h ▸ unpad_pad data⟩

/-- Whole blocks, and not none, the last of which ends in the marker and at most seven zeros. -/
structure WellPadded (padded : List UInt8) : Prop where
  nonempty : padded ≠ []
  aligned : padded.length % 8 = 0
  ends : ∃ kept zeros, zeros ≤ 7 ∧
    padded.drop (padded.length - 8) = kept ++ 0x80 :: List.replicate zeros 0

theorem exists_unpad_iff : (∃ data, unpad padded = .ok data) ↔ WellPadded padded := by
  constructor
  · rintro ⟨data, h⟩
    obtain ⟨hne, hmod⟩ := aligned_of_unpad h
    obtain ⟨front, block, rfl, hf, hb⟩ := exists_eq_append hne hmod
    obtain ⟨kept, zeros, hblock⟩ := (exists_unpad_append_iff hf hb).mp ⟨data, h⟩
    have hzeros : kept.length + (zeros + 1) = 8 := by
      rw [← hb, hblock, List.length_append, List.length_cons, List.length_replicate]
    refine ⟨hne, hmod, kept, zeros, by omega, ?_⟩
    rw [List.length_append, hb, Nat.add_sub_cancel, List.drop_left, hblock]
  · rintro ⟨hne, hmod, kept, zeros, -, hends⟩
    obtain ⟨front, block, rfl, hf, hb⟩ := exists_eq_append hne hmod
    rw [List.length_append, hb, Nat.add_sub_cancel, List.drop_left] at hends
    exact (exists_unpad_append_iff hf hb).mpr ⟨kept, zeros, hends⟩

end CardChannel.Padding
