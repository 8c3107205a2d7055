import CardChannel.Proofs.Channel.Replies
import CardChannel.Proofs.Channel.ResponseChain
import CardChannel.Proofs.Session.Invariant
import CardChannel.Proofs.ShortForm

/-! Channels without command MACs, in a session whose stage and channel are fields of their own.  Such
a channel changes nothing on the way to the card: the bytes of a command that the session reads are
the bytes that it hands over.  On the way back it takes away no more than the MAC of a response, and
where responses have none the caller gets the reply byte for byte: `transmitRaw_transparent`. -/

namespace CardChannel

open Dialogue Stepwise

/-- The caller gets `result` for a reply, and the session is left as `next`.  `covered` stands for
the command under the MAC of its response. -/
structure Relayed (ch : Channel) (covered : List UInt8) (reply : Reply)
    (result : Except Error (List UInt8)) (next : Fields) : Prop where
  unchecked : ch.level.rMac = false →
    ∀ raw answer, reply = .ok raw → (result = .ok answer ↔ 2 ≤ raw.length ∧ answer = raw)
  checked : ch.level.rMac = true →
    ∀ raw answer, reply = .ok raw → (result = .ok answer ↔ ∃ data status,
      raw = data ++ (ch.responseMac covered data status).toBytes ++ status.toBytes ∧
      answer = data ++ status.toBytes)
  stays : ∀ answer, result = .ok answer → next.phase = .opened ∧ next.channel.isSome
  icv : ∀ after, next.channel = some after → after.icv = ch.icv

namespace Session

variable {s : Session} {ch : Channel} {c : Command} {bytes : List UInt8} {cause : ApduError}

/-! ### The way there -/

theorem Established.maxData_of_unmarked {log : List Exchange} (h : s.Established log ch)
    (hc : ch.level.cMac = false) : ch.maxData = s.config.maxData := by
  have hover := SecurityLevel.overhead_of_validate h.level
  rw [SecurityLevel.overhead, hc, if_neg Bool.false_ne_true] at hover
  have hmax := h.maxData
  rw [hc] at hmax
  simp only [Bool.false_eq_true, if_false] at hover hmax
  omega

theorem transmitRaw_of_malformed (h : Command.ofBytes bytes = .error cause) :
    s.transmitRaw bytes = done (.error (.apdu cause), s) := by
  rw [transmitRaw, h]

theorem transmitRaw_of_lt (hst : s.stage = .opened ch) (h : Command.ofBytes bytes = .ok c)
    (hlt : ch.maxData < c.payload.length) :
    s.transmitRaw bytes = done (.error (.dataTooLong c.payload.length ch.maxData), s) := by
  rw [transmitRaw, h]
  simp only [transmit_of_lt hst hlt]
  rfl

/-- The caller of `transmitRaw` gets what `transmit` gives, written as bytes. -/
theorem transmitRaw_of_le {sent : List UInt8} (hst : s.stage = .opened ch)
    (h : Command.ofBytes bytes = .ok c) (hle : c.payload.length ≤ ch.maxData)
    (hb : (ch.protect c).toBytes = .ok sent) :
    s.transmitRaw bytes = send sent fun reply =>
      let outcome := (ch.advance c).receive reply
      done (outcome.1.map Response.toBytes, s.afterTransmit outcome.2 outcome.1) := by
  rw [transmitRaw, h]
  simp only [transmit_of_le hst hle hb]
  rfl

/-! ### The way back -/

theorem relayed (hc : ch.level.cMac = false) (c : Command) (reply : Reply) :
    Relayed ch (Channel.remembered c) reply (((ch.advance c).receive reply).1.map Response.toBytes)
      (s.afterTransmit ((ch.advance c).receive reply).2 ((ch.advance c).receive reply).1).fields := by
  refine
    { unchecked := fun hl raw answer hreply => ?_
      checked := fun hl raw answer hreply => ?_
      stays := fun answer hanswer => ?_
      icv := fun after hafter => ?_ }
  · subst hreply
    simp only [map_eq_ok_iff, Channel.advance_passes_iff hl, Except.ok.injEq]
    constructor
    · rintro ⟨r, rfl, rfl⟩
      exact ⟨by rw [Response.length_toBytes]; omega, rfl⟩
    · rintro ⟨hlong, rfl⟩
      obtain ⟨r, hr⟩ := Response.exists_toBytes_eq hlong
      exact ⟨r, hr, hr.symm⟩
  · subst hreply
    simp only [map_eq_ok_iff, Channel.advance_accepts_iff hl, Except.ok.injEq]
    constructor
    · rintro ⟨⟨data, status⟩, rfl, rfl⟩
      exact ⟨data, status, rfl, rfl⟩
    · rintro ⟨data, status, rfl, rfl⟩
      exact ⟨⟨data, status⟩, rfl, rfl⟩
  · obtain ⟨r, hr, -⟩ := map_eq_ok_iff.mp hanswer
    have hst := (stage_afterTransmit_iff (s := s)).mpr ⟨r, Prod.ext hr rfl⟩
    exact ⟨phase_eq_opened_iff.mpr ⟨_, hst⟩, Option.isSome_of_eq_some (channel?_eq_some_iff.mpr hst)⟩
  · obtain ⟨r, hr⟩ := stage_afterTransmit_iff.mp (channel?_eq_some_iff.mp hafter)
    rw [Channel.icv_of_received hr, hc, if_neg Bool.false_ne_true]

end Session

namespace Stepwise

/-- A session without command MACs and the bytes of a command: what is not a command is refused, and
so is a command with more data than the session is configured for.  Any other is handed over byte
for byte.  The answer is then the reply, without its MAC if responses have one. -/
theorem transmitRaw_transparent {f : Fields} {ch : Channel} (hf : f.Reachable)
    (hch : f.channel = some ch) (hc : ch.level.cMac = false) (bytes : List UInt8) :
    (∀ cause, Command.ofBytes bytes = .error cause →
      f.transmitRaw bytes = done (.error (.apdu cause), f)) ∧
    ∀ c, Command.ofBytes bytes = .ok c →
      (f.config.maxData < c.payload.length → f.transmitRaw bytes =
        done (.error (.dataTooLong c.payload.length f.config.maxData), f)) ∧
      (c.payload.length ≤ f.config.maxData →
        ∃ (covered : List UInt8) (outcome : Reply → Except Error (List UInt8) × Fields),
          Channel.Covered c covered ∧
          f.transmitRaw bytes = send bytes (fun reply => done (outcome reply)) ∧
          ∀ reply, Relayed ch covered reply (outcome reply).1 (outcome reply).2) := by
  obtain ⟨s, hs, rfl⟩ := Fields.reachable_iff.mp hf
  have hst := Session.channel?_eq_some_iff.mp hch
  obtain ⟨log, hestablished⟩ := hs.exists_established hst
  have hmax : ch.maxData = s.fields.config.maxData := hestablished.maxData_of_unmarked hc
  rw [← hmax, transmitRaw_fields hs.sound]
  refine ⟨fun cause hread => ?_, fun c hread => ⟨fun hlt => ?_, fun hle => ?_⟩⟩
  · rw [Session.transmitRaw_of_malformed hread, laidOut_done]
  · rw [Session.transmitRaw_of_lt hst hread hlt, laidOut_done]
  · -- The command is handed over as it is, and it is written as the bytes that it was read from.
    have hwritten := (Command.ofBytes_eq_ok_iff.mp hread).1
    have hcovered : Channel.Covered c (Channel.remembered c) :=
      Channel.covered_remembered (Command.length_payload_of_toBytes hwritten)
    have hsend := Session.transmitRaw_of_le hst hread hle (by
      rw [Channel.protect_of_false hc, hwritten])
    rw [hsend]
    exact ⟨_, _, hcovered, laidOut_send _ _, Session.relayed hc c⟩

/-- GET DATA over a channel with response MACs alone, and one byte that is no command. -/
theorem transmitRaw_transparent_unmodified :
    ∃ (f : Fields) (ch : Channel), f.Reachable ∧ f.channel = some ch ∧ ch.level.cMac = false ∧
      f.transmitRaw [0x80] = done (.error (.apdu (.invalidCommandLength 1)), f) ∧
      ∃ (outcome : Reply → Except Error (List UInt8) × Fields) (mac : Block),
        f.transmitRaw [0x80, 0xCA, 0x00, 0x66, 0x00] =
          send [0x80, 0xCA, 0x00, 0x66, 0x00] (fun reply => done (outcome reply)) ∧
        (outcome (.ok ([0x66, 0x00] ++ mac.toBytes ++ [0x90, 0x00]))).1 =
          .ok [0x66, 0x00, 0x90, 0x00] := by
  have hlevel : SecurityLevel.validate ⟨false, false, true, false⟩ = .ok () := rfl
  obtain ⟨steps, ch, hrun, hch⟩ := Card.exists_run_opened hlevel
  have hf : (Card.unmodified.enter (.opened ch)).fields.Reachable :=
    Fields.reachable_iff.mpr ⟨_, Card.reachable_of_run hrun, rfl⟩
  have hc : ch.level.cMac = false := by rw [hch]
  have hr : ch.level.rMac = true := by rw [hch]
  have hread : Command.ofBytes [0x80, 0xCA, 0x00, 0x66, 0x00] =
      .ok ⟨0x80, 0xCA, 0x00, 0x66, none, some 0x00⟩ := rfl
  have hread' : Command.ofBytes [0x80] = .error (.invalidCommandLength 1) := rfl
  obtain ⟨covered, outcome, -, hsend, hrelayed⟩ :=
    ((transmitRaw_transparent hf rfl hc [0x80, 0xCA, 0x00, 0x66, 0x00]).2 _ hread).2 (Nat.zero_le _)
  refine ⟨_, ch, hf, rfl, hc, (transmitRaw_transparent hf rfl hc [0x80]).1 _ hread', outcome,
    ch.responseMac covered [0x66, 0x00] .success, hsend, ?_⟩
  exact ((hrelayed _).checked hr _ _ rfl).mpr ⟨[0x66, 0x00], .success, rfl, rfl⟩

end Stepwise

end CardChannel
