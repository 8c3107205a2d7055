import CardChannel.Proofs.Recovery
import CardChannel.Proofs.Stepwise.Cipher
import CardChannel.Proofs.Wrapping

/-! Decryption of padded data.  What `decryptPadded` accepts is exactly what `encryptPadded` makes,
and it gives back what that was made of: `decryptPadded_eq_ok_iff`.  All else is refused, and why
depends on the length and on the last block of the plaintext only. -/

namespace CardChannel

/-- Every block is deciphered and added to the one before it. -/
theorem Chaining.decrypt_concat (decipher : Block → Block) (initial last : Block)
    (front : List Block) :
    decrypt decipher initial (front ++ [last]) =
      decrypt decipher initial front ++ [decipher last ^^^ front.getLastD initial] := by
  induction front generalizing initial with
  | nil => rfl
  | cons block rest ih => rw [List.cons_append, decrypt, ih, decrypt, List.getLastD_cons,
      List.cons_append]

namespace Block

/-- A byte string of whole blocks, but not of none, has a last one. -/
theorem exists_eq_join {bytes : List UInt8} (hne : bytes ≠ []) (hmod : bytes.length % 8 = 0) :
    ∃ front last, bytes = join (front ++ [last]) := by
  have hjoin := join_split hmod
  have hblocks : split bytes ≠ [] := by
    intro hnil
    rw [hnil] at hjoin
    exact hne hjoin.symm
  obtain ⟨front, last, hsplit⟩ := (List.eq_nil_or_concat _).resolve_left hblocks
  exact ⟨front, last, by rw [← hjoin, hsplit, List.concat_eq_append]⟩

end Block

namespace SessionKey

variable {key : SessionKey} {c d : List UInt8} {front : List Block} {last : Block}

/-- The last block of the plaintext, from the last two of the ciphertext. -/
def lastPlain (key : SessionKey) (front : List Block) (last : Block) : Block :=
  key.decrypt last ^^^ front.getLastD .zero

theorem decryptPadded_join (key : SessionKey) (front : List Block) (last : Block) :
    key.decryptPadded (Block.join (front ++ [last])) =
      Padding.unpad (Block.join (Chaining.decrypt key.decrypt .zero front) ++
        (key.lastPlain front last).toBytes) := by
  rw [decryptPadded, if_pos (Block.length_join_mod _), Block.split_join, Chaining.decrypt_concat,
    Block.join_append]
  simp only [Block.join_cons, Block.join_nil, List.append_nil, lastPlain]

theorem encryptPadded_of_decryptPadded (h : key.decryptPadded c = .ok d) :
    key.encryptPadded d = c := by
  rw [decryptPadded] at h
  split at h
  · rename_i hmod
    rw [encryptPadded, ← Padding.eq_pad_of_unpad h, Block.split_join,
      Chaining.encrypt_decrypt key.encrypt_decrypt, Block.join_split hmod]
  · cases h

theorem decryptPadded_eq_ok_iff : key.decryptPadded c = .ok d ↔ key.encryptPadded d = c :=
  ⟨encryptPadded_of_decryptPadded, fun h => h ▸ key.decryptPadded_encryptPadded d⟩

/-! ### What is refused -/

theorem decryptPadded_of_length (hmod : c.length % 8 ≠ 0) :
    key.decryptPadded c = .error .misaligned := by
  rw [decryptPadded, if_neg hmod]

theorem decryptPadded_nil : key.decryptPadded [] = .error .paddingMisaligned := rfl

theorem exists_decryptPadded_join_iff :
    (∃ d, key.decryptPadded (Block.join (front ++ [last])) = .ok d) ↔
      Padding.Marked (key.lastPlain front last).toBytes := by
  rw [decryptPadded_join]
  exact Padding.exists_unpad_append_iff (Block.length_join_mod _) (Block.length_toBytes _)

theorem decryptPadded_join_eq_invalid_iff :
    key.decryptPadded (Block.join (front ++ [last])) = .error .paddingInvalid ↔
      ¬ Padding.Marked (key.lastPlain front last).toBytes := by
  rw [decryptPadded_join]
  exact Padding.unpad_append_eq_invalid_iff (Block.length_join_mod _) (Block.length_toBytes _)

/-- What becomes of a ciphertext.  Only what encryption makes is decrypted; of whole blocks it is
the last block of the plaintext that fails. -/
inductive Decrypts (key : SessionKey) :
    List UInt8 → Except Cipher.Fault (List UInt8) → Prop where
  | misaligned {c : List UInt8} (length : c.length % 8 ≠ 0) : Decrypts key c (.error .misaligned)
  | empty : Decrypts key [] (.error .paddingMisaligned)
  | invalid {front : List Block} {last : Block}
      (unmarked : ¬ Padding.Marked (key.lastPlain front last).toBytes) :
      Decrypts key (Block.join (front ++ [last])) (.error .paddingInvalid)
  | decrypted (d : List UInt8) : Decrypts key (key.encryptPadded d) (.ok d)

theorem decrypts_decryptPadded (key : SessionKey) (c : List UInt8) :
    Decrypts key c (key.decryptPadded c) := by
  by_cases hmod : c.length % 8 = 0
  · by_cases hne : c = []
    · subst hne
      exact .empty
    · obtain ⟨front, last, rfl⟩ := Block.exists_eq_join hne hmod
      by_cases hmarked : Padding.Marked (key.lastPlain front last).toBytes
      · obtain ⟨d, hd⟩ := exists_decryptPadded_join_iff.mpr hmarked
        rw [hd, ← decryptPadded_eq_ok_iff.mp hd]
        exact .decrypted d
      · rw [decryptPadded_join_eq_invalid_iff.mpr hmarked]
        exact .invalid hmarked
  · rw [decryptPadded_of_length hmod]
    exact .misaligned hmod

theorem Decrypts.decryptPadded_eq {result : Except Cipher.Fault (List UInt8)}
    (h : Decrypts key c result) : key.decryptPadded c = result := by
  cases h with
  | misaligned length => exact decryptPadded_of_length length
  | empty => exact decryptPadded_nil
  | invalid unmarked => exact decryptPadded_join_eq_invalid_iff.mpr unmarked
  | decrypted d => exact key.decryptPadded_encryptPadded d

theorem decryptPadded_eq_iff {result : Except Cipher.Fault (List UInt8)} :
    key.decryptPadded c = result ↔ Decrypts key c result :=
  ⟨fun h => h ▸ key.decrypts_decryptPadded c, Decrypts.decryptPadded_eq⟩

/-- Under every key, `c` is decrypted to `d` exactly if `d` is encrypted to `c`.  Encryption never
fails, and neither operation fails because of the key: data of every length come back, the
ciphertext is as long as the padded data, and a ciphertext is refused because of its length or
because its plaintext does not end in padding. -/
theorem decryptPadded_inverts (key : SessionKey) (c d : List UInt8) :
    (Stepwise.decryptPadded key c = .ok d ↔ Stepwise.encryptPadded key d = .ok c) ∧
    Stepwise.decryptPadded key c = key.decryptPadded c ∧
    Stepwise.encryptPadded key d = .ok (key.encryptPadded d) ∧
    key.decryptPadded (key.encryptPadded d) = .ok d ∧
    (key.encryptPadded d).length = Padding.paddedLength d.length ∧
    ∀ result, key.decryptPadded c = result ↔ Decrypts key c result := by
  have hencrypt := Stepwise.encryptPadded_eq key d
  refine ⟨?_, Stepwise.decryptPadded_eq key c, hencrypt, key.decryptPadded_encryptPadded d,
    key.length_encryptPadded d, fun result => decryptPadded_eq_iff⟩
  rw [Stepwise.decryptPadded_eq, hencrypt, Except.ok.injEq]
  exact decryptPadded_eq_ok_iff

end SessionKey

end CardChannel
