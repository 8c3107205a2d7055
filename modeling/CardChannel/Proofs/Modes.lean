import CardChannel.Cipher.Inverse
import CardChannel.Proofs.Stepwise.Cipher

/-! Modes of operation of a block cipher, as relations between the bytes before and after.
`CodeBook` enciphers each block on its own, `BlockChain` each block added to the result before it.
Both take whole blocks only and leave no choice: `codeBook_iff` and `blockChain_iff`.  A code book
treats joined data part by part (`CodeBook.append`), and the inverse of the cipher reads it
backwards (`CodeBook.inverse`), so that no two data have the same result. -/

namespace CardChannel

variable {cipher decipher : Block → Block} {initial : Block} {a b x y : List UInt8}

/-- Each block on its own. -/
inductive CodeBook (cipher : Block → Block) : List UInt8 → List UInt8 → Prop where
  | nil : CodeBook cipher [] []
  | block (first : Block) {data result : List UInt8} (rest : CodeBook cipher data result) :
      CodeBook cipher (first.toBytes ++ data) ((cipher first).toBytes ++ result)

/-- Each block added to the result before it, the first to an initial block. -/
inductive BlockChain (cipher : Block → Block) : Block → List UInt8 → List UInt8 → Prop where
  | nil (initial : Block) : BlockChain cipher initial [] []
  | block {initial first coded : Block} {data result : List UInt8}
      (enciphered : coded = cipher (first ^^^ initial))
      (rest : BlockChain cipher coded data result) :
      BlockChain cipher initial (first.toBytes ++ data) (coded.toBytes ++ result)

/-! ### The code book -/

namespace CodeBook

theorem join (blocks : List Block) :
    CodeBook cipher (Block.join blocks) (Block.join (blocks.map cipher)) := by
  induction blocks with
  | nil => exact .nil
  | cons first rest ih => exact .block first ih

theorem length_mod (h : CodeBook cipher a x) : a.length % 8 = 0 := by
  induction h with
  | nil => rfl
  | block first _ ih =>
    rw [List.length_append, Block.length_toBytes]
    omega

theorem length_eq (h : CodeBook cipher a x) : x.length = a.length := by
  induction h with
  | nil => rfl
  | block first _ ih => rw [List.length_append, List.length_append, ih]; rfl

theorem eq_join (h : CodeBook cipher a x) : x = Block.join ((Block.split a).map cipher) := by
  induction h with
  | nil => rfl
  | block first _ ih =>
    rw [Block.split_append_eight first.length_toBytes, Block.ofList_toBytes, List.map_cons,
      Block.join_cons, ← ih]

theorem append (h₁ : CodeBook cipher a x) (h₂ : CodeBook cipher b y) :
    CodeBook cipher (a ++ b) (x ++ y) := by
  induction h₁ with
  | nil => exact h₂
  | block first _ ih =>
    rw [List.append_assoc, List.append_assoc]
    exact .block first ih

theorem inverse (hinv : ∀ block, decipher (cipher block) = block) (h : CodeBook cipher a x) :
    CodeBook decipher x a := by
  induction h with
  | nil => exact .nil
  | block first _ ih =>
    have hfirst : CodeBook decipher _ _ := .block (cipher first) ih
    rwa [hinv] at hfirst

end CodeBook

theorem codeBook_iff :
    CodeBook cipher a x ↔ a.length % 8 = 0 ∧ x = Block.join ((Block.split a).map cipher) := by
  constructor
  · intro h
    exact ⟨h.length_mod, h.eq_join⟩
  · rintro ⟨hmod, rfl⟩
    have h : CodeBook cipher _ _ := .join (Block.split a)
    rwa [Block.join_split hmod] at h

/-- What can be deciphered was enciphered from one source only. -/
theorem CodeBook.source_unique (hinv : ∀ block, decipher (cipher block) = block)
    (ha : CodeBook cipher a x) (hb : CodeBook cipher b x) : a = b := by
  rw [(ha.inverse hinv).eq_join, (hb.inverse hinv).eq_join]

/-! ### The chain -/

namespace BlockChain

theorem join (initial : Block) (blocks : List Block) :
    BlockChain cipher initial (Block.join blocks)
      (Block.join (Chaining.encrypt cipher initial blocks)) := by
  induction blocks generalizing initial with
  | nil => exact .nil initial
  | cons first rest ih => exact .block rfl (ih _)

theorem length_mod (h : BlockChain cipher initial a x) : a.length % 8 = 0 := by
  induction h with
  | nil => rfl
  | block _ _ ih =>
    rw [List.length_append, Block.length_toBytes]
    omega

theorem eq_join (h : BlockChain cipher initial a x) :
    x = Block.join (Chaining.encrypt cipher initial (Block.split a)) := by
  induction h with
  | nil => rfl
  | @block initial first coded data result enciphered _ ih =>
    rw [Block.split_append_eight first.length_toBytes, Block.ofList_toBytes, Chaining.encrypt,
      Block.join_cons, ← enciphered, ← ih]

end BlockChain

theorem blockChain_iff :
    BlockChain cipher initial a x ↔
      a.length % 8 = 0 ∧ x = Block.join (Chaining.encrypt cipher initial (Block.split a)) := by
  constructor
  · intro h
    exact ⟨h.length_mod, h.eq_join⟩
  · rintro ⟨hmod, rfl⟩
    have h : BlockChain cipher initial _ _ := .join initial (Block.split a)
    rwa [Block.join_split hmod] at h

/-! ### The operations that use them -/

theorem SessionKey.encryptBlocks_eq_ok_iff {key : SessionKey} :
    key.encryptBlocks a = .ok x ↔ CodeBook key.encrypt a x := by
  rw [encryptBlocks, codeBook_iff]
  split
  · rename_i hmod
    rw [Except.ok.injEq, and_iff_right hmod, eq_comm]
  · rename_i hmod
    constructor
    · intro h
      cases h
    · intro h
      exact absurd h.1 hmod

theorem Stepwise.encryptTriple_eq_ok_iff {key : TripleKey} :
    encryptTriple key.toBytes initial a = .ok x ↔ BlockChain key.encrypt initial a x := by
  rw [blockChain_iff]
  by_cases hmod : a.length % 8 = 0
  · rw [encryptTriple_toBytes key initial hmod, Except.ok.injEq, and_iff_right hmod, eq_comm]
  · rw [encryptTriple, if_pos hmod]
    constructor
    · intro h
      cases h
    · intro h
      exact absurd h.1 hmod

end CardChannel
