import CardChannel.Cipher.Inverse
import CardChannel.Apdu.Command
import CardChannel.Proofs.Padding

/-! What can be got back from protected data.  `decryptPadded` undoes `encryptPadded`, and a command
that was written can be read again, unless its data field is present but empty. -/

namespace CardChannel

namespace SessionKey

theorem decryptPadded_encryptPadded (key : SessionKey) (data : List UInt8) :
    key.decryptPadded (key.encryptPadded data) = .ok data := by
  have hmod : (key.encryptPadded data).length % 8 = 0 := Block.length_join_mod _
  rw [decryptPadded, if_pos hmod, encryptPadded, Block.split_join,
    Chaining.decrypt_encrypt key.decrypt_encrypt, Block.join_split (Padding.length_pad_mod data),
    Padding.unpad_pad]

end SessionKey

namespace Command

variable {c : Command} {bytes : List UInt8}

/-- A length byte and what follows it are read as a data field and a length of the answer. -/
theorem ofBytes_body {cla ins p1 p2 lc : UInt8} {data : List UInt8} (hd : data ≠ [])
    (hlc : lc.toNat = data.length) (le : Option UInt8) :
    ofBytes (cla :: ins :: p1 :: p2 :: lc :: (data ++ le.toList)) =
      .ok ⟨cla, ins, p1, p2, some data, le⟩ := by
  obtain ⟨first, rest, rfl⟩ := List.exists_cons_of_ne_nil hd
  have hvalid : ¬ (lc = 0 ∨ (first :: rest ++ le.toList).length < lc.toNat) := by
    rintro (rfl | hlt)
    · cases hlc
    · rw [hlc, List.length_append] at hlt
      omega
  rw [List.cons_append, ofBytes, ← List.cons_append, if_neg hvalid, hlc, List.drop_left,
    List.take_left]
  · cases le <;> simp [Option.toList]
  · simp

theorem ofBytes_of_toBytes (h : c.toBytes = .ok bytes) (hd : c.data ≠ some []) :
    ofBytes bytes = .ok c := by
  obtain ⟨cla, ins, p1, p2, data, le⟩ := c
  unfold toBytes at h
  split at h
  · rename_i hlen
    cases h
    match data, hd with
    | none, _ => cases le <;> rfl
    | some data, hd =>
      have hlc : (UInt8.ofNat data.length).toNat = data.length :=
        UInt8.toNat_ofNat_of_lt' (Nat.lt_succ_of_le hlen)
      exact ofBytes_body (fun hnil => hd (congrArg some hnil)) hlc le
  · cases h

/-- Of a data field that is present but empty only the length byte is left, and it is read as the
expected length of the answer. -/
theorem ofBytes_of_empty (h : c.toBytes = .ok bytes) (hd : c.data = some []) (hle : c.le = none) :
    ofBytes bytes = .ok { c with data := none, le := some 0 } := by
  obtain ⟨cla, ins, p1, p2, data, le⟩ := c
  cases hd
  cases hle
  cases h
  rfl

theorem ofBytes_of_empty_le (h : c.toBytes = .ok bytes) (hd : c.data = some []) {le : UInt8}
    (hle : c.le = some le) : ofBytes bytes = .error (.invalidCommandLength 6) := by
  obtain ⟨cla, ins, p1, p2, data, le⟩ := c
  cases hd
  cases hle
  cases h
  rfl

end Command

end CardChannel
