import Mathlib.Algebra.Group.Nat.Defs
import CardChannel.Block

/-! Blocks and their bytes determine each other.  `ofList` and `toBytes` are inverse on eight bytes,
and so are `split` and `join` on byte strings whose length is a multiple of eight.  Blocks are added
byte by byte. -/

namespace CardChannel.Block

/-- The word of at most eight bytes is their value in base 256. -/
theorem toNat_foldl (bytes : List UInt8) (word : UInt64)
    (h : word.toNat < 256 ^ (8 - bytes.length)) (hl : bytes.length ≤ 8) :
    (bytes.foldl (fun word byte => word * 256 + byte.toUInt64) word).toNat =
      bytes.foldl (fun n byte => n * 256 + byte.toNat) word.toNat := by
  induction bytes generalizing word with
  | nil => rfl
  | cons byte rest ih =>
    have hb := byte.toNat_lt
    simp only [List.length_cons] at h hl
    have hp : 256 ^ (8 - rest.length) ≤ 256 ^ 8 := Nat.pow_le_pow_right (by decide) (by omega)
    have hs : 256 ^ (8 - rest.length) = 256 ^ (8 - (rest.length + 1)) * 256 := by
      rw [← Nat.pow_succ]
      congr 1
      omega
    have hw : (word * 256 + byte.toUInt64).toNat = word.toNat * 256 + byte.toNat := by
      simp only [UInt64.toNat_add, UInt64.toNat_mul, UInt8.toNat_toUInt64, UInt64.reduceToNat]
      omega
    rw [List.foldl_cons, List.foldl_cons, ih _ (by omega) (by omega), hw]

@[simp] theorem ofList_toBytes (b : Block) : ofList b.toBytes = b := by
  have hw := toNat_foldl b.toBytes 0 (by simp) (by simp)
  suffices h : (ofList b.toBytes).word = b.word from congrArg mk h
  apply UInt64.toNat_inj.mp
  have hb := b.word.toNat_lt
  rw [ofList, hw]
  simp only [toBytes, List.foldl, UInt64.toNat_toUInt8, UInt64.toNat_shiftRight,
    UInt64.reduceToNat, Nat.shiftRight_eq_div_pow, Nat.reducePow, Nat.reduceMod]
  omega

theorem toBytes_ofList {bytes : List UInt8} (h : bytes.length = 8) :
    (ofList bytes).toBytes = bytes := by
  have hw := toNat_foldl bytes 0 (by rw [h]; decide) (by omega)
  match bytes, h with
  | [a, b, c, d, e, f, g, i], _ =>
    have ha := a.toNat_lt
    have hb := b.toNat_lt
    have hc := c.toNat_lt
    have hd := d.toNat_lt
    have he := e.toNat_lt
    have hf := f.toNat_lt
    have hg := g.toNat_lt
    have hi := i.toNat_lt
    unfold ofList toBytes
    generalize List.foldl _ _ _ = word at hw
    simp only [List.foldl, UInt64.reduceToNat] at hw
    simp only [List.cons.injEq, and_true, ← UInt8.toNat_inj, UInt64.toNat_toUInt8,
      UInt64.toNat_shiftRight, UInt64.reduceToNat, Nat.shiftRight_eq_div_pow, Nat.reducePow,
      Nat.reduceMod, hw]
    omega

@[simp] theorem toBytes_inj {a b : Block} : a.toBytes = b.toBytes ↔ a = b :=
  ⟨fun h => by rw [← ofList_toBytes a, h, ofList_toBytes], congrArg toBytes⟩

theorem ofList_inj {a b : List UInt8} (ha : a.length = 8) (hb : b.length = 8) :
    ofList a = ofList b ↔ a = b :=
  ⟨fun h => by rw [← toBytes_ofList ha, h, toBytes_ofList hb], congrArg ofList⟩

@[simp] theorem toBytes_ofOctets (a : Octets 8) : (ofOctets a).toBytes = a.toList :=
  toBytes_ofList a.length_toList

/-! ### Sequences of blocks -/

@[simp] theorem join_nil : join [] = [] := rfl

@[simp] theorem join_cons (b : Block) (rest : List Block) :
    join (b :: rest) = b.toBytes ++ join rest := rfl

@[simp] theorem join_append (a b : List Block) : join (a ++ b) = join a ++ join b := by
  simp [join]

@[simp] theorem length_join (blocks : List Block) : (join blocks).length = 8 * blocks.length := by
  induction blocks with
  | nil => rfl
  | cons b rest ih =>
    simp [ih]
    omega

theorem length_join_mod (blocks : List Block) : (join blocks).length % 8 = 0 := by
  rw [length_join, Nat.mul_mod_right]

/-- The first block of a byte string is made of its first eight bytes. -/
theorem split_append_eight {head : List UInt8} (h : head.length = 8) (rest : List UInt8) :
    split (head ++ rest) = ofList head :: split rest := by
  match head, h with
  | [_, _, _, _, _, _, _, _], _ => rfl

theorem split_of_length_lt {bytes : List UInt8} (h : bytes.length < 8) : split bytes = [] := by
  unfold split
  split
  · simp only [List.length_cons] at h
    omega
  · rfl

@[simp] theorem split_join (blocks : List Block) : split (join blocks) = blocks := by
  induction blocks with
  | nil => rfl
  | cons b rest ih => rw [join_cons, split_append_eight b.length_toBytes, ih, ofList_toBytes]

theorem join_split {bytes : List UInt8} (h : bytes.length % 8 = 0) :
    join (split bytes) = bytes := by
  induction hn : bytes.length / 8 generalizing bytes with
  | zero => rw [List.length_eq_zero_iff.mp (by omega : bytes.length = 0)]; rfl
  | succ n ih =>
    have ht : (bytes.take 8).length = 8 := by simp; omega
    rw [← List.take_append_drop 8 bytes, split_append_eight ht, join_cons, toBytes_ofList ht,
      ih (by simp; omega) (by simp; omega)]

theorem length_split (bytes : List UInt8) : (split bytes).length = bytes.length / 8 := by
  induction hn : bytes.length / 8 generalizing bytes with
  | zero => rw [split_of_length_lt (by omega), List.length_nil]
  | succ n ih =>
    have ht : (bytes.take 8).length = 8 := by simp; omega
    rw [← List.take_append_drop 8 bytes, split_append_eight ht, List.length_cons,
      ih _ (by simp; omega)]

theorem split_append {a : List UInt8} (h : a.length % 8 = 0) (b : List UInt8) :
    split (a ++ b) = split a ++ split b := by
  induction hn : a.length / 8 generalizing a with
  | zero => rw [List.length_eq_zero_iff.mp (by omega : a.length = 0)]; rfl
  | succ n ih =>
    have ht : (a.take 8).length = 8 := by simp; omega
    rw [← List.take_append_drop 8 a, List.append_assoc, split_append_eight ht,
      split_append_eight ht, ih (by simp; omega) (by simp; omega), List.cons_append]

/-! ### Addition -/

@[simp] theorem xor_cancel_right (a b : Block) : a ^^^ b ^^^ b = a := by
  show Block.mk (a.word ^^^ b.word ^^^ b.word) = a
  rw [UInt64.xor_assoc, UInt64.xor_self, UInt64.xor_zero]

theorem xor_comm (a b : Block) : a ^^^ b = b ^^^ a := congrArg mk (UInt64.xor_comm a.word b.word)

theorem xor_assoc (a b c : Block) : a ^^^ b ^^^ c = a ^^^ (b ^^^ c) :=
  congrArg mk (UInt64.xor_assoc a.word b.word c.word)

@[simp] theorem xor_zero (a : Block) : a ^^^ zero = a := congrArg mk UInt64.xor_zero

@[simp] theorem xor_self (a : Block) : a ^^^ a = zero := congrArg mk UInt64.xor_self

@[simp] theorem xor_left_inj {a b c : Block} : a ^^^ c = b ^^^ c ↔ a = b :=
  ⟨fun h => by rw [← xor_cancel_right a c, h, xor_cancel_right], fun h => by rw [h]⟩

@[simp] theorem xor_right_inj {a b c : Block} : c ^^^ a = c ^^^ b ↔ a = b := by
  rw [xor_comm c a, xor_comm c b, xor_left_inj]

theorem eq_xor_iff {a b c : Block} : a = b ^^^ c ↔ a ^^^ c = b := by
  rw [← xor_left_inj (c := c), xor_cancel_right]

theorem xor_eq_xor_iff {a b c d : Block} : a ^^^ b = c ^^^ d ↔ b ^^^ d = a ^^^ c := by
  rw [eq_xor_iff, xor_assoc, xor_comm a, ← eq_xor_iff, xor_comm c]

theorem toBytes_xor (a b : Block) :
    (a ^^^ b).toBytes = List.zipWith (· ^^^ ·) a.toBytes b.toBytes := by
  have hword : (a ^^^ b).word = a.word ^^^ b.word := rfl
  simp only [toBytes, hword, UInt64.shiftRight_xor, UInt64.toUInt8_xor, List.zipWith_cons_cons,
    List.zipWith_nil_left]

/-- One byte in front of seven zeros. -/
def ofHead (byte : UInt8) : Block := ofList (byte :: List.replicate 7 0)

/-- Where seven bytes are the same, only the first is left. -/
theorem ofList_xor_ofList {rest : List UInt8} (h : rest.length = 7) (a b : UInt8) :
    ofList (a :: rest) ^^^ ofList (b :: rest) = ofHead (a ^^^ b) := by
  have hlen (byte : UInt8) : (byte :: rest).length = 8 := by rw [List.length_cons, h]
  have hrest : List.zipWith (· ^^^ ·) rest rest = List.replicate 7 (0 : UInt8) := by
    simp only [List.zipWith_self, UInt8.xor_self, List.map_const', h]
  rw [← toBytes_inj, toBytes_xor, ofHead, toBytes_ofList (hlen a), toBytes_ofList (hlen b),
    toBytes_ofList rfl, List.zipWith_cons_cons, hrest]

end CardChannel.Block
