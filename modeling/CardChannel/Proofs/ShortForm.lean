import CardChannel.Proofs.Recovery

/-! The byte form of short commands.  Of the byte strings, those in `ShortForm` are read, each as a
command of its own, and writing that command gives the same bytes back: `ofBytes_shortForm`.  The
other way round, a command that is written is read as the same command, with one exception: when
its data field is present but empty, the length byte that is written for it stands where a reader
expects something else, and so the command is lost: `toBytes_readable`. -/

namespace CardChannel.Command

/-- The byte strings that are commands: a header alone, a header with an expected length, or a
header with a length byte that counts the data after it, which are not empty, and then perhaps an
expected length. -/
inductive ShortForm (bytes : List UInt8) : Prop where
  | header (length : bytes.length = 4)
  | expecting (length : bytes.length = 5)
  | data {n : UInt8} (long : 6 ≤ bytes.length) (counts : bytes[4]? = some n)
      (nonempty : 1 ≤ n.toNat) (length : bytes.length = 5 + n.toNat ∨ bytes.length = 6 + n.toNat) :
      ShortForm bytes

/-- The two commands are the same to a card: an empty data field is like none. -/
structure Agrees (c d : Command) : Prop where
  cla : c.cla = d.cla
  ins : c.ins = d.ins
  p1 : c.p1 = d.p1
  p2 : c.p2 = d.p2
  payload : c.payload = d.payload
  le : c.le = d.le

variable {c : Command} {bytes : List UInt8}

theorem Agrees.refl (c : Command) : Agrees c c := ⟨rfl, rfl, rfl, rfl, rfl, rfl⟩

/-! ### Writing -/

theorem toBytes_eq_error_iff {error : ApduError} :
    c.toBytes = .error error ↔ 255 < c.payload.length ∧ error = .dataTooLong c.payload.length := by
  rw [toBytes]
  split
  · rename_i hle
    exact ⟨nofun, fun h => absurd h.1 (Nat.not_lt.mpr hle)⟩
  · rename_i hlt
    rw [Except.error.injEq, eq_comm, and_iff_right (Nat.lt_of_not_le hlt)]

theorem length_payload_of_toBytes (h : c.toBytes = .ok bytes) : c.payload.length ≤ 255 := by
  rw [toBytes] at h
  split at h
  · assumption
  · cases h

theorem exists_toList_eq {rest : List UInt8} (h : rest.length ≤ 1) :
    ∃ le : Option UInt8, le.toList = rest := by
  match rest, h with
  | [], _ => exact ⟨none, rfl⟩
  | [le], _ => exact ⟨some le, rfl⟩

/-- A length byte, the data that it counts, and what is left of the bytes. -/
theorem toBytes_counted {cla ins p1 p2 n : UInt8} {data : List UInt8} (h : data.length = n.toNat)
    (le : Option UInt8) :
    toBytes ⟨cla, ins, p1, p2, some data, le⟩ =
      .ok (cla :: ins :: p1 :: p2 :: n :: (data ++ le.toList)) := by
  have hle : (payload ⟨cla, ins, p1, p2, some data, le⟩).length ≤ 255 := by
    have := n.toNat_lt
    rw [payload, Option.getD_some, h]
    omega
  rw [toBytes, if_pos hle, dataField, h, UInt8.ofNat_toNat]
  rfl

theorem shortForm_of_toBytes (h : c.toBytes = .ok bytes) (hd : c.data ≠ some []) :
    ShortForm bytes := by
  have hlength := length_toBytes h
  have hle := length_payload_of_toBytes h
  obtain ⟨cla, ins, p1, p2, data, le⟩ := c
  cases data with
  | none =>
    cases le with
    | none => exact .header hlength
    | some le => exact .expecting hlength
  | some data =>
    have hn : (UInt8.ofNat data.length).toNat = data.length :=
      UInt8.toNat_ofNat_of_lt' (Nat.lt_succ_of_le hle)
    have hpos : 0 < data.length := List.length_pos_iff.mpr fun hnil => hd (congrArg some hnil)
    rw [toBytes_counted hn.symm, Except.ok.injEq] at h
    have hcounts : bytes[4]? = some (UInt8.ofNat data.length) := by rw [← h]; rfl
    simp only [length, Option.elim] at hlength
    cases le <;> simp only at hlength <;> exact .data (by omega) hcounts (by omega) (by omega)

theorem ShortForm.exists_toBytes (h : ShortForm bytes) :
    ∃ c : Command, c.toBytes = .ok bytes ∧ c.data ≠ some [] := by
  cases h with
  | header length =>
    match bytes, length with
    | [cla, ins, p1, p2], _ => exact ⟨⟨cla, ins, p1, p2, none, none⟩, rfl, nofun⟩
  | expecting length =>
    match bytes, length with
    | [cla, ins, p1, p2, le], _ => exact ⟨⟨cla, ins, p1, p2, none, some le⟩, rfl, nofun⟩
  | @data n long counts nonempty length =>
    match bytes, long, counts, length with
    | cla :: ins :: p1 :: p2 :: lc :: body, _, counts, length =>
      obtain rfl : lc = n := Option.some.inj counts
      simp only [List.length_cons] at length
      have htake : (body.take lc.toNat).length = lc.toNat := by
        rw [List.length_take]
        omega
      have hrest : (body.drop lc.toNat).length ≤ 1 := by
        rw [List.length_drop]
        omega
      obtain ⟨le, hle⟩ := exists_toList_eq hrest
      refine ⟨⟨cla, ins, p1, p2, some (body.take lc.toNat), le⟩, ?_, fun hnil => ?_⟩
      · rw [toBytes_counted htake, hle, List.take_append_drop]
      · rw [Option.some.inj hnil, List.length_nil] at htake
        omega

/-! ### Reading -/

theorem ofBytes_of_not_shortForm (h : ¬ ShortForm bytes) :
    ofBytes bytes = .error (.invalidCommandLength bytes.length) := by
  unfold ofBytes
  split
  · exact absurd (.header rfl) h
  · exact absurd (.expecting rfl) h
  · rename_i cla ins p1 p2 lc body _
    split
    · rfl
    rename_i hvalid
    obtain ⟨hne, hbody⟩ := not_or.mp hvalid
    have hpos : 1 ≤ lc.toNat := Nat.one_le_iff_ne_zero.mpr fun hz => hne (UInt8.toNat_inj.mp hz)
    -- Zero or one byte after the data would make the bytes a command.
    have hrest : 1 < (body.drop lc.toNat).length := by
      by_cases hshort : (body.drop lc.toNat).length ≤ 1
      · rw [List.length_drop] at hshort
        refine absurd (.data ?_ rfl hpos ?_) h <;> simp only [List.length_cons] <;> omega
      · omega
    split
    · rename_i hdrop
      rw [hdrop] at hrest
      cases hrest
    · rename_i hdrop
      rw [hdrop] at hrest
      exact absurd hrest (Nat.lt_irrefl 1)
    · rfl
  · rfl

/-- A command is read from the bytes that are written for it, and from no others. -/
theorem ofBytes_eq_ok_iff : ofBytes bytes = .ok c ↔ c.toBytes = .ok bytes ∧ c.data ≠ some [] := by
  refine ⟨fun h => ?_, fun h => ofBytes_of_toBytes h.1 h.2⟩
  by_cases hshort : ShortForm bytes
  · obtain ⟨d, hd, hdata⟩ := hshort.exists_toBytes
    obtain rfl : d = c := Except.ok.inj ((ofBytes_of_toBytes hd hdata).symm.trans h)
    exact ⟨hd, hdata⟩
  · rw [ofBytes_of_not_shortForm hshort] at h
    cases h

theorem exists_ofBytes_iff : (∃ c, ofBytes bytes = .ok c) ↔ ShortForm bytes := by
  simp only [ofBytes_eq_ok_iff]
  exact ⟨fun ⟨c, h, hd⟩ => shortForm_of_toBytes h hd, ShortForm.exists_toBytes⟩

/-- Nothing of the bytes is lost in the command that is read. -/
theorem ofBytes_injective {other : List UInt8} (h : ofBytes bytes = .ok c)
    (h' : ofBytes other = .ok c) : other = bytes :=
  Except.ok.inj ((ofBytes_eq_ok_iff.mp h').1.symm.trans (ofBytes_eq_ok_iff.mp h).1)

theorem length_data_of_ofBytes (h : ofBytes bytes = .ok c) {data : List UInt8}
    (hdata : c.data = some data) : 1 ≤ data.length ∧ data.length ≤ 255 := by
  obtain ⟨hwrite, hne⟩ := ofBytes_eq_ok_iff.mp h
  have hle := length_payload_of_toBytes hwrite
  rw [payload, hdata, Option.getD_some] at hle
  refine ⟨List.length_pos_iff.mpr fun hnil => hne ?_, hle⟩
  rw [hdata, hnil]

/-- A byte string is read exactly if it has the short form; any other is refused for its length.
The command that is read is written as the same bytes, its data field is absent or has at least one
byte and at most 255, and it is read from no other bytes. -/
theorem ofBytes_shortForm (bytes : List UInt8) :
    ((∃ c, ofBytes bytes = .ok c) ↔ ShortForm bytes) ∧
    (¬ ShortForm bytes → ofBytes bytes = .error (.invalidCommandLength bytes.length)) ∧
    ∀ c, ofBytes bytes = .ok c →
      c.toBytes = .ok bytes ∧ c.length = bytes.length ∧
      (∀ data, c.data = some data → 1 ≤ data.length ∧ data.length ≤ 255) ∧
      ∀ other, ofBytes other = .ok c → other = bytes := by
  refine ⟨exists_ofBytes_iff, ofBytes_of_not_shortForm, fun c h => ?_⟩
  have hwrite := (ofBytes_eq_ok_iff.mp h).1
  exact ⟨hwrite, (length_toBytes hwrite).symm, fun _ => length_data_of_ofBytes h,
    fun _ => ofBytes_injective h⟩

/-! ### Commands that are not read back -/

/-- A command is refused for more than 255 bytes of data only.  If it is written, then it is read as
the same command, except when its data field is present but empty: then the length byte is taken
for an expected length, or, before one, for that of data that are missing. -/
theorem toBytes_readable (c : Command) :
    (∀ error, c.toBytes = .error error ↔
      255 < c.payload.length ∧ error = .dataTooLong c.payload.length) ∧
    ∀ bytes, c.toBytes = .ok bytes →
      ((∃ d, ofBytes bytes = .ok d ∧ c.Agrees d) ↔ c.data ≠ some []) ∧
      (c.data ≠ some [] → ofBytes bytes = .ok c) ∧
      (c.data = some [] → c.le = none →
        ofBytes bytes = .ok { c with data := none, le := some 0 }) ∧
      (c.data = some [] → ∀ le, c.le = some le →
        ofBytes bytes = .error (.invalidCommandLength 6)) := by
  refine ⟨fun error => toBytes_eq_error_iff, fun bytes h => ⟨⟨?_, fun hd => ?_⟩, ?_, ?_, ?_⟩⟩
  · rintro ⟨d, hd, hagrees⟩ hempty
    cases hle : c.le with
    | none =>
      rw [ofBytes_of_empty h hempty hle] at hd
      cases hd
      rw [hagrees.le] at hle
      cases hle
    | some le =>
      rw [ofBytes_of_empty_le h hempty hle] at hd
      cases hd
  · exact ⟨c, ofBytes_of_toBytes h hd, .refl c⟩
  · exact ofBytes_of_toBytes h
  · exact ofBytes_of_empty h
  · exact fun hempty le hle => ofBytes_of_empty_le h hempty hle

/-- A command with an expected length whose data field is present but empty. -/
def emptyField : Command := ⟨0x80, 0x20, 0x90, 0x04, some [], some 0x00⟩

/-- It is written, and what is written is not a command.  Without the expected length it is read as
a command that has one. -/
theorem emptyField_unreadable :
    emptyField.toBytes = .ok [0x80, 0x20, 0x90, 0x04, 0x00, 0x00] ∧
    (¬ ∃ d, ofBytes [0x80, 0x20, 0x90, 0x04, 0x00, 0x00] = .ok d ∧ emptyField.Agrees d) ∧
    { emptyField with le := none }.toBytes = .ok [0x80, 0x20, 0x90, 0x04, 0x00] ∧
    ¬ ∃ d, ofBytes [0x80, 0x20, 0x90, 0x04, 0x00] = .ok d ∧
      { emptyField with le := none }.Agrees d := by
  refine ⟨rfl, ?_, rfl, ?_⟩
  · rintro ⟨d, hd, -⟩
    cases hd
  · rintro ⟨d, hd, hagrees⟩
    cases hd
    cases hagrees.le

end CardChannel.Command
