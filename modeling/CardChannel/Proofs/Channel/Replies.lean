import CardChannel.Proofs.Channel.Calls

/-! What becomes of a command once it has been handed over.  `Ends` has one case for each reply that
a reader can give: without response MACs a response is passed on as it is, and with them its length
and its last eight bytes decide.  The channel judges every reply as `Ends` says (`ends_advance`), and
a response that it has to check is accepted exactly if the card has signed it (`advance_accepts_iff`).
The chain of responses moves with such a response only (`Ends.verified_of_ne`). -/

namespace CardChannel.Channel

/-- A reply, what is made of it, and the chaining value of responses afterwards.  `covered` stands
for the command under the MAC of its response. -/
inductive Ends (ch : Channel) (covered : List UInt8) :
    Reply → Except Error Response → Block → Prop where
  | lost (cause : TransportError) :
    Ends ch covered (.error cause) (.error (.transport cause)) ch.responseIcv
  | incomplete {raw : List UInt8} (short : raw.length < 2) :
    Ends ch covered (.ok raw) (.error (.response .incomplete)) ch.responseIcv
  | unchecked (level : ch.level.rMac = false) (r : Response) :
    Ends ch covered (.ok r.toBytes) (.ok r) ch.responseIcv
  | noMac (level : ch.level.rMac = true) {r : Response} (short : r.payload.length < 8) :
    Ends ch covered (.ok r.toBytes)
      (.error (.protocol "response too short to carry an R-MAC")) ch.responseIcv
  | wrongMac (level : ch.level.rMac = true) (r : Response) {mac : List UInt8}
      (length : mac.length = 8)
      (wrong : mac ≠ (ch.responseMac covered r.payload r.status).toBytes) :
    Ends ch covered (.ok (r.payload ++ mac ++ r.status.toBytes))
      (.error (.authenticationFailed "invalid R-MAC")) ch.responseIcv
  | verified (level : ch.level.rMac = true) (r : Response) {mac : Block}
      (right : mac = ch.responseMac covered r.payload r.status) :
    Ends ch covered (.ok (r.payload ++ mac.toBytes ++ r.status.toBytes)) (.ok r) mac

variable {ch : Channel} {c : Command} {reply : Reply} {result : Except Error Response}
  {covered : List UInt8} {icv : Block} {r : Response}

namespace Ends

theorem verified_of_ne (h : Ends ch covered reply result icv) (hmoved : icv ≠ ch.responseIcv) :
    ch.level.rMac = true ∧ ∃ r, result = .ok r := by
  cases h with
  | verified level => exact ⟨level, _, rfl⟩
  | _ => exact absurd rfl hmoved

/-- What is accepted is the reply, without its MAC if it has to have one. -/
theorem reply_eq (h : Ends ch covered reply (.ok r) icv) :
    reply = .ok (r.payload ++ (if ch.level.rMac then icv.toBytes else []) ++ r.status.toBytes) := by
  cases h with
  | unchecked level =>
    rw [level, if_neg Bool.false_ne_true, List.append_nil]
    rfl
  | verified level => rw [if_pos level]

theorem reply_sign (h : Ends ch covered reply (.ok r) icv) (hl : ch.level.rMac = true) :
    reply = .ok (ch.sign covered r).toBytes := by
  cases h with
  | unchecked level =>
    rw [hl] at level
    cases level
  | verified _ _ right =>
    rw [right]
    rfl

end Ends

/-! ### The channel after a command -/

theorem responseMac_advance (ch : Channel) (c : Command) (last data : List UInt8)
    (status : StatusWord) :
    (ch.advance c).responseMac last data status = ch.responseMac last data status := by
  rw [responseMac, (ch.continues_advance c).keys, responseIcv_advance]
  rfl

/-- A response is judged by its length and by its last eight bytes. -/
theorem ends_unwrap_advance (ch : Channel) (c : Command) (r : Response) :
    Ends ch (remembered c) (.ok r.toBytes) ((ch.advance c).unwrap r).1
      ((ch.advance c).unwrap r).2.responseIcv := by
  have hicv := ch.responseIcv_advance c
  cases hl : ch.level.rMac with
  | false =>
    rw [unwrap_of_unchecked (by rw [level_advance, hl]), hicv]
    exact .unchecked hl r
  | true =>
    have hlevel : (ch.advance c).level.rMac = true := by rw [level_advance, hl]
    have hlast : (ch.advance c).lastCommand = some (remembered c) := by
      rw [lastCommand_advance, if_pos hl]
    by_cases hshort : r.payload.length < macLength
    · rw [unwrap_of_lt hlevel hshort, hicv]
      exact .noMac hl hshort
    · -- The last eight bytes are taken for the MAC, whatever they are.
      obtain ⟨data, mac, hdata, hlength⟩ :
          ∃ data mac, r.payload = data ++ mac ∧ mac.length = macLength := by
        refine ⟨_, _, (List.take_append_drop (r.payload.length - macLength) _).symm, ?_⟩
        rw [List.length_drop]
        omega
      have hbytes : r.toBytes = data ++ mac ++ r.status.toBytes := by rw [Response.toBytes, hdata]
      rw [unwrap_of_length hlevel hlast hdata hlength, responseMac_advance, hbytes]
      split
      · rename_i heq
        rw [heq]
        exact .verified hl ⟨data, r.status⟩ rfl
      · rename_i hne
        rw [hicv]
        exact .wrongMac hl ⟨data, r.status⟩ hlength hne

theorem ends_advance (ch : Channel) (c : Command) (reply : Reply) :
    Ends ch (remembered c) reply ((ch.advance c).receive reply).1
      ((ch.advance c).receive reply).2.responseIcv := by
  cases reply with
  | error cause =>
    show Ends ch (remembered c) (.error cause) (.error (.transport cause))
      (ch.advance c).responseIcv
    rw [responseIcv_advance]
    exact .lost cause
  | ok raw =>
    by_cases hshort : raw.length < 2
    · rw [receive_of_length_lt hshort, responseIcv_advance]
      exact .incomplete hshort
    · obtain ⟨r, rfl⟩ := Response.exists_toBytes_eq (Nat.le_of_not_lt hshort)
      rw [receive_toBytes]
      exact ch.ends_unwrap_advance c r

/-- Without response MACs every reply that is a response is accepted. -/
theorem advance_passes_iff (hl : ch.level.rMac = false) :
    ((ch.advance c).receive reply).1 = .ok r ↔ reply = .ok r.toBytes := by
  constructor
  · intro h
    have hends := ch.ends_advance c reply
    rw [h] at hends
    have hreply := hends.reply_eq
    rwa [hl, if_neg Bool.false_ne_true, List.append_nil] at hreply
  · rintro rfl
    have hlevel : (ch.advance c).level.rMac = false := by rw [level_advance, hl]
    rw [receive_toBytes, unwrap_of_unchecked hlevel]

/-- The response to a command is accepted exactly if it comes signed. -/
theorem advance_accepts_iff (hl : ch.level.rMac = true) :
    ((ch.advance c).receive reply).1 = .ok r ↔
      reply = .ok (ch.sign (remembered c) r).toBytes := by
  constructor
  · intro h
    have hends := ch.ends_advance c reply
    rw [h] at hends
    exact hends.reply_sign hl
  · rintro rfl
    have hlevel : (ch.advance c).level.rMac = true := by rw [level_advance, hl]
    have hlast : (ch.advance c).lastCommand = some (remembered c) := by
      rw [lastCommand_advance, if_pos hl]
    have hsign : ch.sign (remembered c) r = (ch.advance c).sign (remembered c) r := by
      rw [sign, sign, responseMac_advance]
    rw [receive_toBytes, hsign, unwrap_sign hlevel hlast]

end CardChannel.Channel
