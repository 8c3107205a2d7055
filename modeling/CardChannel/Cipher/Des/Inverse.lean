import CardChannel.Block.Lemmas
import CardChannel.Cipher.Des

/-! Every key of DES gives a permutation of the blocks.  The initial and the final permutation undo
each other, which their tables show bit by bit, and the rounds between them are undone by the
reversed round keys.  `decrypt_encrypt` and `encrypt_decrypt` follow, under every key. -/

namespace CardChannel.Des

open Feistel

/-! ### Selections -/

theorem select_append (width : Nat) (table : List Nat) (i : Nat) (word : UInt64) :
    select width (table ++ [i]) word =
      select width table word <<< 1 ||| (word >>> (width - i).toUInt64 &&& 1) := by
  simp [select]

theorem toBitVec_shiftRight (word : UInt64) {n : Nat} (h : n < 64) :
    (word >>> n.toUInt64).toBitVec = word.toBitVec >>> n := by
  have hn : (n.toUInt64.toBitVec % 64).toNat = n := by
    rw [BitVec.toNat_umod]
    show n % 2 ^ 64 % 64 = n
    omega
  rw [UInt64.toBitVec_shiftRight, BitVec.ushiftRight_eq', hn]

/-- Bit `k` of a selection, from the right, is the bit that entry `k` of the table, from the right,
names. -/
theorem getLsbD_select {width : Nat} {table : List Nat} (hw : width ≤ 64) (ht : ∀ i ∈ table, 0 < i)
    (word : UInt64) {k : Nat} (hk : k < 64) (hkt : k < table.length) :
    (select width table word).toBitVec.getLsbD k =
      word.toBitVec.getLsbD (width - table.reverse.getD k 0) := by
  induction h : table.reverse generalizing table k with
  | nil => simp_all
  | cons last rest ih =>
    have hr : table = rest.reverse ++ [last] := by simpa using congrArg List.reverse h
    have hlast : 0 < last := ht last (by simp [hr])
    rw [hr, select_append, UInt64.toBitVec_or, UInt64.toBitVec_and,
      toBitVec_shiftRight word (by omega)]
    cases k with
    | zero => simp
    | succ k =>
      have below : (select width rest.reverse word).toBitVec.getLsbD k = _ :=
        ih (fun i hi => ht i (by rw [hr]; exact List.mem_append_left _ hi)) (by omega)
          (by simp [hr] at hkt ⊢; omega) (by simp)
      rw [List.getD_cons_succ, ← below]
      simp [BitVec.getLsbD_one]
      omega

/-- Every bit that `outer` takes is one that `inner` put there from its own place. -/
def Undoes (outer inner : List Nat) : Prop :=
  ∀ k < 64, 64 - inner.reverse.getD (64 - outer.reverse.getD k 0) 0 = k

instance (outer inner : List Nat) : Decidable (Undoes outer inner) :=
  inferInstanceAs (Decidable (∀ k < 64, _))

theorem select_select {outer inner : List Nat} (ho : ∀ i ∈ outer, 0 < i)
    (hi : ∀ i ∈ inner, 0 < i) (hol : outer.length = 64) (hil : inner.length = 64)
    (h : Undoes outer inner) (word : UInt64) : select 64 outer (select 64 inner word) = word := by
  apply UInt64.eq_of_toBitVec_eq
  apply BitVec.eq_of_getLsbD_eq
  intro k hk
  have hpos : 0 < outer.reverse.getD k 0 := by
    rw [List.getD_eq_getElem?_getD, List.getElem?_eq_getElem (by simpa [hol] using hk),
      Option.getD_some]
    exact ho _ (List.mem_reverse.mp (List.getElem_mem _))
  rw [getLsbD_select (by decide) ho _ hk (by omega),
    getLsbD_select (by decide) hi _ (by omega) (by omega), h k hk]

theorem finalPermutation_initialPermutation (word : UInt64) :
    select 64 finalPermutation (select 64 initialPermutation word) = word :=
  select_select (by decide) (by decide) rfl rfl (by decide) word

theorem initialPermutation_finalPermutation (word : UInt64) :
    select 64 initialPermutation (select 64 finalPermutation word) = word :=
  select_select (by decide) (by decide) rfl rfl (by decide) word

/-! ### Halves -/

theorem toNat_unhalve (h : Halves) :
    (unhalve h).toNat = h.left.toNat * 2 ^ 32 + h.right.toNat := by
  have hl := h.left.toNat_lt
  have hr := h.right.toNat_lt
  have hs : (h.left.toUInt64 <<< 32).toNat = h.left.toNat <<< 32 := by
    rw [UInt64.toNat_shiftLeft]
    simp [Nat.shiftLeft_eq]
    omega
  rw [unhalve, UInt64.toNat_or, hs, UInt32.toNat_toUInt64, ← Nat.shiftLeft_add_eq_or_of_lt hr,
    Nat.shiftLeft_eq]

theorem unhalve_halves (word : UInt64) : unhalve (halves word) = word := by
  apply UInt64.toNat_inj.mp
  have hw := word.toNat_lt
  rw [toNat_unhalve]
  simp only [halves, UInt64.toNat_toUInt32, UInt64.toNat_shiftRight, UInt64.reduceToNat,
    Nat.shiftRight_eq_div_pow, Nat.reducePow, Nat.reduceMod]
  omega

theorem halves_unhalve (h : Halves) : halves (unhalve h) = h := by
  obtain ⟨left, right⟩ := h
  have hl := left.toNat_lt
  have hr := right.toNat_lt
  simp only [halves, Halves.mk.injEq, ← UInt32.toNat_inj, UInt64.toNat_toUInt32,
    UInt64.toNat_shiftRight, UInt64.reduceToNat, Nat.shiftRight_eq_div_pow, Nat.reducePow,
    Nat.reduceMod, toNat_unhalve]
  omega

/-! ### The cipher -/

theorem crypt_reverse_crypt (keys : List UInt64) (block : Block) :
    crypt keys.reverse (crypt keys block) = block := by
  obtain ⟨word⟩ := block
  simp only [crypt, initialPermutation_finalPermutation, halves_unhalve, swap_run_reverse,
    unhalve_halves, finalPermutation_initialPermutation]

@[simp] theorem decrypt_encrypt (key block : Block) : decrypt key (encrypt key block) = block :=
  crypt_reverse_crypt (schedule key) block

@[simp] theorem encrypt_decrypt (key block : Block) : encrypt key (decrypt key block) = block := by
  have h := crypt_reverse_crypt (schedule key).reverse block
  rwa [List.reverse_reverse] at h

@[simp] theorem encrypt_inj {key a b : Block} : encrypt key a = encrypt key b ↔ a = b :=
  ⟨fun h => by rw [← decrypt_encrypt key a, h, decrypt_encrypt], congrArg _⟩

end CardChannel.Des
