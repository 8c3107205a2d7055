import CardChannel.Cipher.Inverse

/-! The retail MAC as a function of its key, its initial value and its data.  It is the chaining
value of single DES over all padded blocks, decrypted under the right half of the key and encrypted
again under the left: `SessionKey.mac_eq_chain`.  Each step permutes the blocks, so the MAC tells
apart two initial values, and two data that differ in one byte.  When both differ, a difference in the
first byte can be made up for: `SessionKey.mac_head_eq_iff`. -/

namespace CardChannel

namespace Chaining

variable {cipher : Block → Block}

@[simp] theorem mac_nil (initial : Block) : mac cipher initial [] = initial := rfl

@[simp] theorem mac_cons (initial block : Block) (rest : List Block) :
    mac cipher initial (block :: rest) = mac cipher (cipher (block ^^^ initial)) rest := rfl

theorem mac_append (initial : Block) (a b : List Block) :
    mac cipher initial (a ++ b) = mac cipher (mac cipher initial a) b := by
  simp [mac]

theorem mac_initial_inj (h : Function.Injective cipher) {a b : Block} (blocks : List Block) :
    mac cipher a blocks = mac cipher b blocks ↔ a = b := by
  induction blocks generalizing a b with
  | nil => rfl
  | cons block rest ih => rw [mac_cons, mac_cons, ih, h.eq_iff, Block.xor_right_inj]

/-- A difference in one block is still there after all blocks that follow. -/
theorem mac_block_inj (h : Function.Injective cipher) {initial a b : Block}
    (before after : List Block) :
    mac cipher initial (before ++ a :: after) = mac cipher initial (before ++ b :: after) ↔
      a = b := by
  rw [mac_append, mac_append, mac_cons, mac_cons, mac_initial_inj h, h.eq_iff, Block.xor_left_inj]

end Chaining

namespace Block

/-- The block that holds one byte of a byte string, whatever that byte is. -/
theorem exists_split_append_cons (front back : List UInt8)
    (h : (front.length + back.length + 1) % 8 = 0) :
    ∃ before left right after, left.length + right.length = 7 ∧ ∀ byte,
      split (front ++ byte :: back) = before ++ ofList (left ++ byte :: right) :: after := by
  let n := front.length / 8 * 8
  have hn : n ≤ front.length ∧ front.length < n + 8 ∧ n + 8 ≤ front.length + back.length + 1 := by
    omega
  refine ⟨split (front.take n), front.drop n, back.take (n + 7 - front.length),
    split (back.drop (n + 7 - front.length)), by simp; omega, fun byte => ?_⟩
  have hblock : (front.drop n ++ byte :: back.take (n + 7 - front.length)).length = 8 := by
    simp
    omega
  rw [← split_append_eight hblock, ← split_append (by simp; omega)]
  congr 1
  rw [← List.append_assoc, ← List.append_assoc, List.take_append_drop, List.append_assoc,
    List.cons_append, List.take_append_drop]

end Block

namespace Padding

/-- The padding depends on the length only. -/
theorem pad_append_cons (front back : List UInt8) :
    ∃ rest, ∀ byte, pad (front ++ byte :: back) = front ++ byte :: rest := by
  refine ⟨back ++ marker :: List.replicate
    (paddedLength (front.length + back.length + 1) - (front.length + back.length + 1) - 1) 0,
    fun byte => ?_⟩
  simp [pad, Nat.add_assoc]

end Padding

namespace SessionKey

variable (key : SessionKey)

theorem split_pad_ne_nil (data : List UInt8) : Block.split (Padding.pad data) ≠ [] := by
  intro h
  have hl := Block.length_split (Padding.pad data)
  rw [h, Padding.length_pad, Padding.paddedLength, List.length_nil] at hl
  omega

/-- The padded data end in a block. -/
theorem exists_split_pad (data : List UInt8) :
    ∃ front last, Block.split (Padding.pad data) = front ++ [last] := by
  obtain ⟨front, last, hsplit⟩ := (List.eq_nil_or_concat _).resolve_left (split_pad_ne_nil data)
  exact ⟨front, last, hsplit.trans List.concat_eq_append⟩

theorem des_encrypt_injective (key : Block) : Function.Injective (Des.encrypt key) :=
  fun _ _ => Des.encrypt_inj.mp

theorem mac_eq_chain (initial : Block) (data : List UInt8) :
    key.mac initial data = Des.encrypt key.left (Des.decrypt key.right
      (Chaining.mac (Des.encrypt key.left) initial (Block.split (Padding.pad data)))) := by
  obtain ⟨front, last, hsplit⟩ := exists_split_pad data
  simp only [mac, hsplit, List.dropLast_concat, List.getLastD_concat, Chaining.mac_append,
    Chaining.mac_cons, Chaining.mac_nil, encrypt, toTriple, TripleKey.encrypt]

theorem mac_inj_chain {initial initial' : Block} {data data' : List UInt8} :
    key.mac initial data = key.mac initial' data' ↔
      Chaining.mac (Des.encrypt key.left) initial (Block.split (Padding.pad data)) =
        Chaining.mac (Des.encrypt key.left) initial' (Block.split (Padding.pad data')) := by
  rw [mac_eq_chain, mac_eq_chain, Des.encrypt_inj]
  constructor
  · intro h
    rw [← Des.encrypt_decrypt key.right (Chaining.mac _ initial _), h, Des.encrypt_decrypt]
  · intro h
    rw [h]

/-- A MAC belongs to one initial value only. -/
theorem mac_initial_inj {a b : Block} {data : List UInt8} :
    key.mac a data = key.mac b data ↔ a = b := by
  rw [mac_inj_chain, Chaining.mac_initial_inj (des_encrypt_injective key.left)]

/-- Two data that differ in one byte have different MACs. -/
theorem mac_byte_inj {initial : Block} {front back : List UInt8} {a b : UInt8} :
    key.mac initial (front ++ a :: back) = key.mac initial (front ++ b :: back) ↔ a = b := by
  obtain ⟨rest, hpad⟩ := Padding.pad_append_cons front back
  have hmod := Padding.length_pad_mod (front ++ a :: back)
  rw [hpad, List.length_append, List.length_cons] at hmod
  obtain ⟨before, left, right, after, hlen, hsplit⟩ :=
    Block.exists_split_append_cons front rest (by omega)
  rw [mac_inj_chain, hpad, hpad, hsplit, hsplit,
    Chaining.mac_block_inj (des_encrypt_injective key.left),
    Block.ofList_inj (by simp; omega) (by simp; omega), List.append_cancel_left_eq, List.cons.injEq]
  exact ⟨And.left, fun h => ⟨h, rfl⟩⟩

theorem mac_head_inj {initial : Block} {back : List UInt8} {a b : UInt8} :
    key.mac initial (a :: back) = key.mac initial (b :: back) ↔ a = b := by
  rw [← List.nil_append (a :: back), ← List.nil_append (b :: back), mac_byte_inj]

/-- The first byte is in the first block, whatever it is. -/
theorem exists_split_pad_cons (back : List UInt8) :
    ∃ rest after, rest.length = 7 ∧ ∀ byte,
      Block.split (Padding.pad (byte :: back)) = Block.ofList (byte :: rest) :: after := by
  obtain ⟨padded, hpad⟩ := Padding.pad_append_cons [] back
  simp only [List.nil_append] at hpad
  have hmod := Padding.length_pad_mod (0 :: back)
  rw [hpad, List.length_cons] at hmod
  have hlen : (padded.take 7).length = 7 := by simp; omega
  refine ⟨padded.take 7, Block.split (padded.drop 7), hlen, fun byte => ?_⟩
  have hhead : (byte :: padded.take 7).length = 8 := by rw [List.length_cons, hlen]
  rw [hpad, ← Block.split_append_eight hhead, List.cons_append, List.take_append_drop]

/-- Data that differ in the first byte have one MAC if the initial values make up for it. -/
theorem mac_head_eq_iff {initial initial' : Block} {back : List UInt8} {a b : UInt8} :
    key.mac initial (a :: back) = key.mac initial' (b :: back) ↔
      initial ^^^ initial' = Block.ofHead (a ^^^ b) := by
  obtain ⟨rest, after, hlen, hsplit⟩ := exists_split_pad_cons back
  rw [mac_inj_chain, hsplit, hsplit, Chaining.mac_cons, Chaining.mac_cons,
    Chaining.mac_initial_inj (des_encrypt_injective key.left), Des.encrypt_inj,
    Block.xor_eq_xor_iff, Block.ofList_xor_ofList hlen]

end SessionKey

end CardChannel
