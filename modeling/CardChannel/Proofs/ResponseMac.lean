import CardChannel.Channel
import CardChannel.Proofs.RetailMac

/-! What a channel with response MACs accepts.  A response is accepted exactly when its data end in
the MAC over the command before it, the data before the MAC and the status: `unwrap_eq_ok_iff`.  No
byte of an accepted response can be replaced unnoticed: `unwrap_corrupted`. -/

namespace CardChannel

namespace Response

theorem ofBytes_of_length_lt {raw : List UInt8} (h : raw.length < 2) :
    ofBytes raw = .error .incomplete := by
  match raw, h with
  | [], _ => rfl
  | [_], _ => rfl

theorem exists_toBytes_eq {raw : List UInt8} (h : 2 ≤ raw.length) :
    ∃ r : Response, raw = r.toBytes := by
  match hr : raw.reverse with
  | sw2 :: sw1 :: rest =>
    refine ⟨⟨rest.reverse, sw1, sw2⟩, ?_⟩
    rw [← List.reverse_reverse raw, hr, toBytes, StatusWord.toBytes]
    simp
  | [] | [_] =>
    have hlength := congrArg List.length hr
    rw [List.length_reverse] at hlength
    simp only [List.length_nil, List.length_cons] at hlength
    omega

variable (r : Response) (byte : UInt8)

theorem length_toBytes : r.toBytes.length = r.payload.length + 2 := by
  rw [toBytes, List.length_append, StatusWord.length_toBytes]

theorem getElem_toBytes_of_lt {k : Nat} (h : k < r.payload.length) (hk : k < r.toBytes.length) :
    r.toBytes[k] = r.payload[k] := by
  simp [toBytes, h]

theorem getElem_toBytes_length (h : r.payload.length < r.toBytes.length) :
    r.toBytes[r.payload.length] = r.status.sw1 := by
  simp [toBytes, StatusWord.toBytes]

theorem getElem_toBytes_length_succ (h : r.payload.length + 1 < r.toBytes.length) :
    r.toBytes[r.payload.length + 1] = r.status.sw2 := by
  simp [toBytes, StatusWord.toBytes]

theorem set_toBytes_of_lt {k : Nat} (h : k < r.payload.length) :
    r.toBytes.set k byte = { r with payload := r.payload.set k byte }.toBytes := by
  rw [toBytes, toBytes, List.set_append_left _ _ h]

theorem set_toBytes_length :
    r.toBytes.set r.payload.length byte = toBytes ⟨r.payload, byte, r.status.sw2⟩ := by
  simp [toBytes, StatusWord.toBytes, List.set_append_right]

theorem set_toBytes_length_succ :
    r.toBytes.set (r.payload.length + 1) byte = toBytes ⟨r.payload, r.status.sw1, byte⟩ := by
  simp [toBytes, StatusWord.toBytes, List.set_append_right]

end Response

namespace Channel

variable {ch next : Channel} {last data : List UInt8} {status : StatusWord}

/-- A response with its MAC, from a card that shares the keys and chains of the channel. -/
def sign (ch : Channel) (last : List UInt8) (r : Response) : Response :=
  { r with payload := r.payload ++ (ch.responseMac last r.payload r.status).toBytes }

theorem length_sign (r : Response) :
    (ch.sign last r).payload.length = r.payload.length + macLength := by
  rw [sign, List.length_append, Block.length_toBytes, macLength]

/-- Unwrapping leaves the channel as it is, or it accepts and only the chain of responses moves. -/
theorem unwrap_cases (ch : Channel) (r : Response) :
    (∃ error, ch.unwrap r = (.error error, ch) ∧
      (error = responseTooShort ∨ error = noCommand ∨ error = invalidResponseMac)) ∨
    ∃ plain icv, ch.unwrap r = (.ok plain, { ch with responseIcv := icv }) := by
  unfold unwrap
  split
  · split
    · exact .inl ⟨_, rfl, .inl rfl⟩
    · split
      · exact .inl ⟨_, rfl, .inr (.inl rfl)⟩
      · dsimp only
        split
        · exact .inr ⟨_, _, rfl⟩
        · exact .inl ⟨_, rfl, .inr (.inr rfl)⟩
  · exact .inr ⟨r, ch.responseIcv, rfl⟩

theorem unwrap_of_unchecked (hl : ch.level.rMac = false) (r : Response) :
    ch.unwrap r = (.ok r, ch) := by
  rw [unwrap, hl]
  rfl

/-- A response that is long enough is judged by its last eight bytes. -/
theorem unwrap_of_length (hl : ch.level.rMac = true) (hc : ch.lastCommand = some last)
    {r : Response} {mac : List UInt8} (hr : r.payload = data ++ mac)
    (hm : mac.length = macLength) :
    ch.unwrap r =
      if mac = (ch.responseMac last data r.status).toBytes then
        (.ok ⟨data, r.status⟩, { ch with responseIcv := ch.responseMac last data r.status })
      else (.error invalidResponseMac, ch) := by
  have hlen : r.payload.length = data.length + macLength := by rw [hr, List.length_append, hm]
  have htake : r.payload.take (r.payload.length - macLength) = data := by
    rw [hlen, hr, Nat.add_sub_cancel, List.take_left]
  have hdrop : r.payload.drop (r.payload.length - macLength) = mac := by
    rw [hlen, hr, Nat.add_sub_cancel, List.drop_left]
  rw [unwrap, if_pos hl, if_neg (by omega), hc]
  simp only [htake, hdrop]

theorem unwrap_sign (hl : ch.level.rMac = true) (hc : ch.lastCommand = some last) (r : Response) :
    ch.unwrap (ch.sign last r) =
      (.ok r, { ch with responseIcv := ch.responseMac last r.payload r.status }) := by
  have hr : (ch.sign last r).payload =
      r.payload ++ (ch.responseMac last r.payload r.status).toBytes := rfl
  rw [unwrap_of_length hl hc hr (Block.length_toBytes _)]
  exact if_pos rfl

theorem unwrap_eq_ok_iff (hl : ch.level.rMac = true) {r plain : Response} :
    ch.unwrap r = (.ok plain, next) ↔
      ∃ last, ch.lastCommand = some last ∧ r = ch.sign last plain ∧
        next = { ch with responseIcv := ch.responseMac last plain.payload plain.status } := by
  constructor
  · intro h
    have hlen : ¬ r.payload.length < macLength := by
      intro hlt
      rw [unwrap, if_pos hl, if_pos hlt] at h
      cases h
    have hsome : ch.lastCommand ≠ none := by
      intro hc
      rw [unwrap, if_pos hl, if_neg hlen, hc] at h
      cases h
    obtain ⟨last, hc⟩ := Option.ne_none_iff_exists'.mp hsome
    have hr := (List.take_append_drop (r.payload.length - macLength) r.payload).symm
    rw [unwrap_of_length hl hc hr (by rw [List.length_drop]; omega)] at h
    split at h
    · rename_i hm
      cases h
      refine ⟨last, hc, ?_, rfl⟩
      rw [sign, ← hm, List.take_append_drop]
    · cases h
  · rintro ⟨last, hc, rfl, rfl⟩
    exact unwrap_sign hl hc plain

/-! ### Single bytes -/

theorem responseMac_data_inj {front back : List UInt8} {a b : UInt8} :
    ch.responseMac last (front ++ a :: back) status =
      ch.responseMac last (front ++ b :: back) status ↔ a = b := by
  have hinput : ∀ byte, responseMacInput last (front ++ byte :: back) status =
      (last ++ UInt8.ofNat (front.length + back.length + 1) :: front) ++
        byte :: (back ++ status.toBytes) := by
    intro byte
    simp [responseMacInput, Nat.add_assoc]
  rw [responseMac, responseMac, hinput, hinput, SessionKey.mac_byte_inj]

theorem responseMac_set_ne {k : Nat} (hk : k < data.length) {byte : UInt8}
    (hb : byte ≠ data[k]) :
    ch.responseMac last (data.set k byte) status ≠ ch.responseMac last data status := by
  have hiff : ch.responseMac last (data.take k ++ byte :: data.drop (k + 1)) status =
      ch.responseMac last (data.take k ++ data[k] :: data.drop (k + 1)) status ↔ byte = data[k] :=
    responseMac_data_inj
  rw [List.getElem_cons_drop, List.take_append_drop] at hiff
  rw [List.set_eq_take_append_cons_drop, if_pos hk, Ne, hiff]
  exact hb

theorem responseMac_sw1_inj (status : StatusWord) {a b : UInt8} :
    ch.responseMac last data { status with sw1 := a } =
      ch.responseMac last data { status with sw1 := b } ↔ a = b :=
  ch.keys.rMac.mac_byte_inj

theorem responseMac_sw2_inj (status : StatusWord) {a b : UInt8} :
    ch.responseMac last data { status with sw2 := a } =
      ch.responseMac last data { status with sw2 := b } ↔ a = b := by
  have hinput : ∀ byte, responseMacInput last data { status with sw2 := byte } =
      (last ++ UInt8.ofNat data.length :: data ++ [status.sw1]) ++ byte :: [] := by
    intro byte
    simp [responseMacInput, StatusWord.toBytes]
  rw [responseMac, responseMac, hinput, hinput, SessionKey.mac_byte_inj]

theorem unwrap_of_mac_ne (hl : ch.level.rMac = true) (hc : ch.lastCommand = some last)
    {mac : List UInt8} (hm : mac.length = macLength)
    (hne : (ch.responseMac last data status).toBytes ≠ mac) :
    ch.unwrap ⟨data ++ mac, status⟩ = (.error invalidResponseMac, ch) := by
  rw [unwrap_of_length hl hc rfl hm, if_neg hne.symm]

/-- Another byte among the data changes the MAC, and another byte in the MAC is not the right one. -/
theorem unwrap_set_payload (hl : ch.level.rMac = true) (hc : ch.lastCommand = some last)
    (plain : Response) {k : Nat} (hk : k < (ch.sign last plain).payload.length) {byte : UInt8}
    (hb : byte ≠ (ch.sign last plain).payload[k]) :
    ch.unwrap ⟨(ch.sign last plain).payload.set k byte, plain.status⟩ =
      (.error invalidResponseMac, ch) := by
  have hlen : (ch.sign last plain).payload.length = plain.payload.length + macLength :=
    ch.length_sign plain
  have hmac := Block.length_toBytes (ch.responseMac last plain.payload plain.status)
  by_cases hdata : k < plain.payload.length
  · rw [sign, List.set_append_left _ _ hdata]
    refine unwrap_of_mac_ne hl hc hmac ?_
    rw [Ne, Block.toBytes_inj]
    exact responseMac_set_ne hdata (by simpa [sign, hdata] using hb)
  · have hright : plain.payload.length ≤ k := Nat.le_of_not_lt hdata
    have hi : k - plain.payload.length < 8 := by
      rw [hlen, macLength] at hk
      omega
    rw [sign, List.set_append_right _ _ hright]
    refine unwrap_of_mac_ne hl hc (by rw [List.length_set, hmac]; rfl) fun heq => hb ?_
    have hget := congrArg (fun bytes => bytes[k - plain.payload.length]?) heq
    simp only [List.getElem?_set_self (hmac ▸ hi)] at hget
    rw [List.getElem?_eq_getElem (hmac ▸ hi), Option.some.injEq] at hget
    simpa [sign, List.getElem_append_right hright] using hget.symm

/-- The MAC covers the status. -/
theorem unwrap_of_status_ne (hl : ch.level.rMac = true) (hc : ch.lastCommand = some last)
    (plain : Response)
    (hne : ch.responseMac last plain.payload status ≠
      ch.responseMac last plain.payload plain.status) :
    ch.unwrap ⟨(ch.sign last plain).payload, status⟩ = (.error invalidResponseMac, ch) := by
  refine unwrap_of_mac_ne hl hc (Block.length_toBytes _) ?_
  rwa [Ne, Block.toBytes_inj]

/-- An accepted response in which one byte of the data, of the MAC or of the status is replaced by
another fails authentication and leaves the channel as it is. -/
theorem unwrap_corrupted {r plain : Response} (hl : ch.level.rMac = true)
    (hr : ch.unwrap r = (.ok plain, next)) {k : Nat} (hk : k < r.toBytes.length) {byte : UInt8}
    (hb : byte ≠ r.toBytes[k]) :
    ∃ corrupted, Response.ofBytes (r.toBytes.set k byte) = .ok corrupted ∧
      ch.unwrap corrupted = (.error (.authenticationFailed "invalid R-MAC"), ch) := by
  obtain ⟨last, hc, rfl, rfl⟩ := (unwrap_eq_ok_iff hl).mp hr
  rw [Response.length_toBytes] at hk
  -- The byte is one of the payload, or the first or second of the status.
  by_cases hpayload : k < (ch.sign last plain).payload.length
  · rw [Response.getElem_toBytes_of_lt _ hpayload] at hb
    refine ⟨_, by rw [Response.set_toBytes_of_lt _ _ hpayload, Response.ofBytes_toBytes], ?_⟩
    exact unwrap_set_payload hl hc plain hpayload hb
  · obtain rfl | rfl : k = (ch.sign last plain).payload.length ∨
        k = (ch.sign last plain).payload.length + 1 := by omega
    · rw [Response.getElem_toBytes_length] at hb
      refine ⟨_, by rw [Response.set_toBytes_length, Response.ofBytes_toBytes], ?_⟩
      exact unwrap_of_status_ne hl hc plain fun heq =>
        hb ((responseMac_sw1_inj plain.status).mp heq)
    · rw [Response.getElem_toBytes_length_succ] at hb
      refine ⟨_, by rw [Response.set_toBytes_length_succ, Response.ofBytes_toBytes], ?_⟩
      exact unwrap_of_status_ne hl hc plain fun heq =>
        hb ((responseMac_sw2_inj plain.status).mp heq)

/-- The channel of a recorded session, after a command was sent. -/
def recordedChannel : Channel :=
  let key : SessionKey := ⟨⟨0x08B0EB321CC0A0C7⟩, ⟨0x0970FF018E8C517D⟩⟩
  { keys := ⟨key, key, key, key⟩
    options := .default
    level := ⟨true, false, true, false⟩
    maxData := 247
    icv := none
    responseIcv := ⟨0xD548435F7981B2B4⟩
    lastCommand := some [0x80, 0xF2, 0x80, 0x02, 0x02, 0x4F, 0x00] }

def recordedData : List UInt8 :=
  [0xE3, 0x13, 0x4F, 0x08, 0xA0, 0x00, 0x00, 0x01, 0x51, 0x00, 0x00, 0x00, 0x9F, 0x70, 0x01,
    0x07, 0xC5, 0x03, 0x9E, 0xFE, 0x80]

def recordedResponse : Response :=
  ⟨recordedData ++ [0x44, 0x90, 0xAD, 0xB9, 0x65, 0x57, 0x0A, 0x76], .success⟩

/-- The recorded response is accepted, and with another status it is not. -/
theorem unwrap_corrupted_recorded :
    recordedChannel.level.rMac = true ∧
    recordedChannel.unwrap recordedResponse =
      (.ok ⟨recordedData, .success⟩,
        { recordedChannel with responseIcv := ⟨0x4490ADB965570A76⟩ }) ∧
    ∃ corrupted, Response.ofBytes (recordedResponse.toBytes.set 29 0x63) = .ok corrupted ∧
      recordedChannel.unwrap corrupted =
        (.error (.authenticationFailed "invalid R-MAC"), recordedChannel) := by
  have mac : recordedChannel.responseMac [0x80, 0xF2, 0x80, 0x02, 0x02, 0x4F, 0x00] recordedData
      .success = ⟨0x4490ADB965570A76⟩ := by decide +kernel
  have accepted : recordedChannel.unwrap recordedResponse =
      (.ok ⟨recordedData, .success⟩,
        { recordedChannel with responseIcv := ⟨0x4490ADB965570A76⟩ }) :=
    (unwrap_eq_ok_iff rfl).mpr ⟨_, rfl, by rw [sign, mac]; rfl, by rw [mac]⟩
  exact ⟨rfl, accepted, unwrap_corrupted rfl accepted (by decide) (by decide)⟩

end Channel

end CardChannel
