import CardChannel.Hex

/-! Hexadecimal text reads back as the bytes that it was written from, in either case of letters:
`decode_digits`.  A text that can be read starts with a digit, if it is not empty, and so it looks
neither like an option on a command line nor like a line with a label: `head?_ne`. -/

namespace CardChannel.Hex

section Utf8

theorem toList_loop (bytes : ByteArray) (i : Nat) (front : List UInt8) :
    ByteArray.toList.loop bytes i front = front.reverse ++ bytes.data.toList.drop i := by
  fun_induction ByteArray.toList.loop bytes i front with
  | case1 i front hlt ih =>
    have hlength : i < bytes.data.toList.length := hlt
    have hget : bytes.get! i = bytes.data.toList[i] := by
      rw [ByteArray.get!, getElem!_pos bytes.data i hlt, Array.getElem_toList]
    rw [ih, List.drop_eq_getElem_cons hlength, hget, List.reverse_cons, List.append_assoc]
    rfl
  | case2 i front hge =>
    have hlength : bytes.data.toList.length ≤ i := Nat.le_of_not_lt hge
    rw [List.drop_eq_nil_of_le hlength, List.append_nil]

theorem toList_toUTF8 (text : String) :
    text.toUTF8.toList = text.toList.flatMap String.utf8EncodeChar := by
  have hbytes : text.toUTF8 = (text.toList.flatMap String.utf8EncodeChar).toByteArray :=
    String.utf8Encode_toList.symm
  rw [hbytes, ByteArray.toList, toList_loop, List.toList_data_toByteArray]
  rfl

end Utf8

section Digits

variable (letters : Case)

/-- The code of a digit in the encoding of the text. -/
def code (value : UInt8) : UInt8 := (digit letters value).val.toUInt8

/-- Every digit is written as one byte, which has its value again. -/
theorem utf8_digit {value : UInt8} (h : value < 16) :
    String.utf8EncodeChar (digit letters value) = [code letters value] ∧
      value? (code letters value) = some value := by
  have hall : ∀ bits : BitVec 8, (⟨bits⟩ : UInt8) < 16 →
      String.utf8EncodeChar (digit letters ⟨bits⟩) = [code letters ⟨bits⟩] ∧
        value? (code letters ⟨bits⟩) = some ⟨bits⟩ := by
    cases letters <;> decide +kernel
  exact hall value.toBitVec h

theorem high_lt (byte : UInt8) : byte / 16 < 16 := by
  have := byte.toNat_lt
  rw [UInt8.lt_iff_toNat_lt, UInt8.toNat_div]
  show byte.toNat / 16 < 16
  omega

theorem low_lt (byte : UInt8) : byte % 16 < 16 := by
  rw [UInt8.lt_iff_toNat_lt, UInt8.toNat_mod]
  show byte.toNat % 16 < 16
  omega

theorem high_low (byte : UInt8) : byte / 16 * 16 + byte % 16 = byte := by
  have := byte.toNat_lt
  rw [← UInt8.toNat_inj]
  simp only [UInt8.toNat_add, UInt8.toNat_mul, UInt8.toNat_div, UInt8.toNat_mod, UInt8.reduceToNat]
  omega

theorem utf8_digits (byte : UInt8) :
    (digits letters byte).flatMap String.utf8EncodeChar =
      [code letters (byte / 16), code letters (byte % 16)] := by
  simp only [digits, List.flatMap_cons, List.flatMap_nil, List.append_nil,
    (utf8_digit letters (high_lt byte)).1, (utf8_digit letters (low_lt byte)).1]
  rfl

theorem valueAt_code {value : UInt8} (h : value < 16) (index : Nat) :
    valueAt (code letters value) index = .ok value := by
  rw [valueAt, (utf8_digit letters h).2]

theorem decodePairs_digits (bytes : List UInt8) (index : Nat) :
    decodePairs index (bytes.flatMap fun byte =>
      (digits letters byte).flatMap String.utf8EncodeChar) = .ok bytes := by
  induction bytes generalizing index with
  | nil => rfl
  | cons byte rest ih =>
    rw [List.flatMap_cons, utf8_digits, List.cons_append, List.cons_append, List.nil_append,
      decodePairs, valueAt_code letters (high_lt byte), valueAt_code letters (low_lt byte)]
    simp only [bind, Except.bind, pure, Except.pure, ih, high_low]

theorem decode_digits (bytes : List UInt8) :
    decode (String.ofList (bytes.flatMap (digits letters))) = .ok bytes := by
  have hcodes : (String.ofList (bytes.flatMap (digits letters))).toUTF8.toList =
      bytes.flatMap fun byte => (digits letters byte).flatMap String.utf8EncodeChar := by
    rw [toList_toUTF8, String.toList_ofList, List.flatMap_assoc]
  have hlength : (bytes.flatMap fun byte =>
      (digits letters byte).flatMap String.utf8EncodeChar).length = 2 * bytes.length := by
    simp only [utf8_digits, List.length_flatMap, List.length_cons, List.length_nil,
      List.map_const', List.sum_replicate_nat]
    omega
  rw [decode, hcodes, hlength, if_pos (Nat.mul_mod_right 2 _), decodePairs_digits]

end Digits

theorem decode_encodeUpper (bytes : List UInt8) : decode (encodeUpper bytes) = .ok bytes :=
  decode_digits .upper bytes

/-- What can be read starts with a digit. -/
theorem head?_ne {text : String} {bytes : List UInt8} {c : Char} {byte : UInt8}
    (h : decode text = .ok bytes) (hc : String.utf8EncodeChar c = [byte])
    (hbyte : value? byte = none) : text.toList.head? ≠ some c := by
  intro hhead
  obtain ⟨rest, htext⟩ := List.head?_eq_some_iff.mp hhead
  have hcodes : text.toUTF8.toList = byte :: rest.flatMap String.utf8EncodeChar := by
    rw [toList_toUTF8, htext, List.flatMap_cons, hc, List.singleton_append]
  rw [decode, hcodes] at h
  cases hrest : rest.flatMap String.utf8EncodeChar with
  | nil => rw [hrest] at h; cases h
  | cons low more =>
    rw [hrest] at h
    split at h
    · simp only [decodePairs, valueAt, hbyte, bind, Except.bind, reduceCtorEq] at h
    · cases h

end CardChannel.Hex
