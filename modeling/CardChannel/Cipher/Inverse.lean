import CardChannel.Cipher.Des.Inverse
import CardChannel.Keys.SessionKey

/-! Decryption undoes encryption, for triple DES and for chained blocks. -/

namespace CardChannel

namespace TripleKey

@[simp] theorem decrypt_encrypt (key : TripleKey) (block : Block) :
    key.decrypt (key.encrypt block) = block := by
  simp [decrypt, encrypt]

@[simp] theorem encrypt_decrypt (key : TripleKey) (block : Block) :
    key.encrypt (key.decrypt block) = block := by
  simp [decrypt, encrypt]

theorem encrypt_injective (key : TripleKey) : Function.Injective key.encrypt :=
  Function.LeftInverse.injective key.decrypt_encrypt

end TripleKey

namespace Chaining

variable {cipher decipher : Block → Block}

@[simp] theorem length_encrypt (initial : Block) (blocks : List Block) :
    (encrypt cipher initial blocks).length = blocks.length := by
  induction blocks generalizing initial with
  | nil => rfl
  | cons block rest ih => simp [encrypt, ih]

theorem encrypt_ne_nil (initial : Block) {blocks : List Block} (h : blocks ≠ []) :
    encrypt cipher initial blocks ≠ [] := by
  rw [Ne, ← List.length_eq_zero_iff, length_encrypt, List.length_eq_zero_iff]
  exact h

theorem decrypt_encrypt (h : ∀ b, decipher (cipher b) = b) (initial : Block)
    (blocks : List Block) : decrypt decipher initial (encrypt cipher initial blocks) = blocks := by
  induction blocks generalizing initial with
  | nil => rfl
  | cons block rest ih => simp [encrypt, decrypt, h, ih]

theorem encrypt_decrypt (h : ∀ b, cipher (decipher b) = b) (initial : Block)
    (blocks : List Block) : encrypt cipher initial (decrypt decipher initial blocks) = blocks := by
  induction blocks generalizing initial with
  | nil => rfl
  | cons block rest ih => simp [encrypt, decrypt, h, ih]

end Chaining

namespace SessionKey

@[simp] theorem decrypt_encrypt (key : SessionKey) (block : Block) :
    key.decrypt (key.encrypt block) = block :=
  key.toTriple.decrypt_encrypt block

@[simp] theorem encrypt_decrypt (key : SessionKey) (block : Block) :
    key.encrypt (key.decrypt block) = block :=
  key.toTriple.encrypt_decrypt block

theorem encrypt_injective (key : SessionKey) : Function.Injective key.encrypt :=
  key.toTriple.encrypt_injective

end SessionKey

end CardChannel
