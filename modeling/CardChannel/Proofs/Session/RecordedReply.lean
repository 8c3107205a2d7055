import CardChannel.Proofs.Cryptogram
import CardChannel.Proofs.Session.Transition

/-! A reply to INITIALIZE UPDATE proves something about one handshake only.  Played back to another
host challenge it is rejected, and so it is when its card challenge or its cryptogram is replaced:
`recorded_reply_rejected`.  In each case it is the cryptogram that fails, and not something that is
checked before it. -/

namespace CardChannel

namespace InitializeUpdate.Reply

variable (reply : Reply)

/-- A reply as it is sent. -/
def bytes : List UInt8 := (Response.success reply.payload).toBytes

theorem length_bytes : reply.bytes.length = 30 := by
  rw [bytes, Response.length_toBytes, Response.success, length_payload]

/-- The card challenge is in the bytes 14 to 19. -/
theorem bytes_cardChallenge (other : CardChallenge) :
    { reply with cardChallenge := other }.bytes =
      reply.bytes.take 14 ++ other.toList ++ reply.bytes.drop 20 := by
  simp (disch := simp [Octets.length_toList]) [bytes, payload, Response.toBytes, Response.success,
    List.take_append, List.drop_append, Octets.length_toList, List.take_of_length_le,
    List.drop_eq_nil_of_le]

/-- The cryptogram is in the bytes 20 to 27. -/
theorem bytes_cardCryptogram (other : Block) :
    { reply with cardCryptogram := other }.bytes =
      reply.bytes.take 20 ++ other.toBytes ++ reply.bytes.drop 28 := by
  simp (disch := simp [Octets.length_toList]) [bytes, payload, Response.toBytes, Response.success,
    List.take_append, List.drop_append, Octets.length_toList, List.take_of_length_le,
    List.drop_eq_nil_of_le]

end InitializeUpdate.Reply

/-- A byte string that differs from another in `n` bytes from position `i` only. -/
theorem Octets.exists_replaced {a b : List UInt8} {i n : Nat} (hlength : a.length = b.length)
    (hn : i + n ≤ b.length) (hfront : a.take i = b.take i)
    (hback : a.drop (i + n) = b.drop (i + n)) :
    ∃ field : Octets n, a = b.take i ++ field.toList ++ b.drop (i + n) := by
  refine ⟨⟨(a.drop i).take n, by simp; omega⟩, ?_⟩
  rw [← hfront, ← hback, List.append_assoc, ← List.drop_drop, List.take_append_drop,
    List.take_append_drop]

namespace Session

open Dialogue

variable {s next : Session} {keyVersion : UInt8} {hostChallenge : Block} {raw : List UInt8}

/-- The reply `raw` to INITIALIZE UPDATE fails authentication, and the session with it. -/
def Rejects (s : Session) (keyVersion : UInt8) (hostChallenge : Block) (raw : List UInt8) : Prop :=
  ∃ failed : Session, failed.stage = .failed ∧ failed.channel? = none ∧ ∀ apdu outcome,
    Trace (s.initializeUpdateWith keyVersion hostChallenge) [.sent apdu (.ok raw)] outcome ↔
      apdu = InitializeUpdate.bytes keyVersion hostChallenge ∧
        outcome = (.error (.authenticationFailed "invalid card cryptogram"), failed)

theorem trace_sent_iff {apdu : List UInt8} {outcome : Except Error Handshake × Session} :
    Trace (s.initializeUpdateWith keyVersion hostChallenge) [.sent apdu (.ok raw)] outcome ↔
      apdu = InitializeUpdate.bytes keyVersion hostChallenge ∧
        outcome = s.settle (fun _ => .challenged) (s.judge keyVersion hostChallenge (.ok raw)) := by
  rw [trace_initializeUpdateWith_iff]
  constructor
  · rintro ⟨reply, hevents, houtcome⟩
    cases hevents
    exact ⟨rfl, houtcome⟩
  · rintro ⟨rfl, houtcome⟩
    exact ⟨.ok raw, rfl, houtcome⟩

/-- A reply that suits the session is rejected for any cryptogram but the right one. -/
theorem rejects_of_suits {reply : InitializeUpdate.Reply} {keys : SessionKeys}
    (h : Handshake.Suits s.keys (s.config.baseKeys s.options) keyVersion reply keys)
    (hcard : Cryptogram.card keys.enc reply.sequenceCounter reply.cardChallenge hostChallenge ≠
      reply.cardCryptogram) (stage : Stage) :
    (s.enter stage).Rejects keyVersion hostChallenge reply.bytes := by
  have hjudge : (s.enter stage).judge keyVersion hostChallenge (.ok reply.bytes) =
      .error Handshake.invalidCardCryptogram :=
    (Handshake.judge_of_suits h).trans (if_neg hcard)
  refine ⟨s.enter .failed, rfl, rfl, fun apdu outcome => ?_⟩
  rw [trace_sent_iff, hjudge]
  rfl

/-- What a session makes of an accepted reply when it is played back or altered, in any stage.  For
another host challenge it fails authentication.  For the same one, it does so with other bytes in
the place of its card challenge or of its cryptogram. -/
theorem recorded_reply_rejected {h : Handshake} {apdu : List UInt8}
    (accepted : Trace (s.initializeUpdateWith keyVersion hostChallenge) [.sent apdu (.ok raw)]
      (.ok h, next)) (stage : Stage) :
    (∀ other, other ≠ hostChallenge → (s.enter stage).Rejects keyVersion other raw) ∧
    (∀ altered, altered.length = raw.length → altered.take 14 = raw.take 14 →
      altered.drop 20 = raw.drop 20 → altered ≠ raw →
      (s.enter stage).Rejects keyVersion hostChallenge altered) ∧
    ∀ altered, altered.length = raw.length → altered.take 20 = raw.take 20 →
      altered.drop 28 = raw.drop 28 → altered ≠ raw →
      (s.enter stage).Rejects keyVersion hostChallenge altered := by
  obtain ⟨-, houtcome⟩ := trace_sent_iff.mp accepted
  have hjudge : s.judge keyVersion hostChallenge (.ok raw) = .ok h := by
    cases hj : s.judge keyVersion hostChallenge (.ok raw) with
    | error error => rw [hj] at houtcome; cases houtcome
    | ok handshake => rw [hj] at houtcome; cases houtcome; rfl
  obtain ⟨hraw, hsuits, hcard, -⟩ := Handshake.suits_of_judge hjudge
  obtain rfl : raw = h.reply.bytes := Except.ok.inj hraw
  have hlength := h.reply.length_bytes
  refine ⟨fun other hother => ?_, fun altered hl hfront hback hne => ?_,
    fun altered hl hfront hback hne => ?_⟩
  · refine rejects_of_suits hsuits (fun hsame => hother ?_) stage
    exact (Cryptogram.card_hostChallenge_inj _ _).mp (hsame.trans hcard.symm)
  · obtain ⟨other, rfl⟩ := Octets.exists_replaced (n := 6) hl (by omega) hfront hback
    rw [← h.reply.bytes_cardChallenge other] at hne ⊢
    refine rejects_of_suits (hsuits.replaced other h.reply.cardCryptogram)
      (fun hsame => hne ?_) stage
    obtain rfl : other = h.reply.cardChallenge :=
      (Cryptogram.card_cardChallenge_inj _ _).mp (hsame.trans hcard.symm)
    rfl
  · obtain ⟨other, rfl⟩ := Octets.exists_replaced (n := 8) hl (by omega) hfront hback
    rw [← Block.toBytes_ofOctets other, ← h.reply.bytes_cardCryptogram] at hne ⊢
    refine rejects_of_suits (hsuits.replaced h.reply.cardChallenge (.ofOctets other))
      (fun hsame => hne ?_) stage
    have hother : .ofOctets other = h.reply.cardCryptogram := hsame.symm.trans hcard
    rw [hother]

/-- A new session with the default keys. -/
def sample : Session := ⟨KeySet.default, .default, .default, .new⟩

def sampleChallenge : Block := ⟨0xE4C522735415CC5C⟩

/-- A reply that was recorded for `sample`, with the last bytes of its two last fields left open:
they were `0x04` and `0x65`. -/
def sampleReply (challenge cryptogram : UInt8) : List UInt8 :=
  [0x00, 0x00, 0x00, 0x00, 0x00, 0x00, 0x00, 0x00, 0x00, 0x00, 0x01, 0x02,
    0x00, 0x02, 0xD9, 0x85, 0x7D, 0x53, 0x2F, challenge,
    0xEF, 0xA4, 0x52, 0x4D, 0x0C, 0x24, 0x72, cryptogram, 0x90, 0x00]

/-- The recorded reply is accepted.  After a failure it is played back to a host challenge with one
bit changed, and in `sample` itself one bit of either field is changed. -/
theorem recorded_reply_rejected_sample :
    (∃ h next, Trace (sample.initializeUpdateWith 0 sampleChallenge)
      [.sent (InitializeUpdate.bytes 0 sampleChallenge) (.ok (sampleReply 0x04 0x65))]
      (.ok h, next)) ∧
    (sample.enter .failed).Rejects 0 ⟨0xE4C522735415CC5D⟩ (sampleReply 0x04 0x65) ∧
    sample.Rejects 0 sampleChallenge (sampleReply 0x05 0x65) ∧
    sample.Rejects 0 sampleChallenge (sampleReply 0x04 0x64) := by
  have haccepted : (sample.judge 0 sampleChallenge (.ok (sampleReply 0x04 0x65))).isOk := by
    decide +kernel
  cases hjudge : sample.judge 0 sampleChallenge (.ok (sampleReply 0x04 0x65)) with
  | error error => rw [hjudge] at haccepted; cases haccepted
  | ok h =>
    have haccepted : Trace (sample.initializeUpdateWith 0 sampleChallenge)
        [.sent (InitializeUpdate.bytes 0 sampleChallenge) (.ok (sampleReply 0x04 0x65))]
        (.ok h, sample.enter .challenged) :=
      trace_sent_iff.mpr ⟨rfl, by rw [hjudge]; rfl⟩
    obtain ⟨hreplayed, -, -⟩ := recorded_reply_rejected haccepted .failed
    obtain ⟨-, hchallenge, hcryptogram⟩ := recorded_reply_rejected haccepted .new
    exact ⟨⟨h, _, haccepted⟩, hreplayed _ (by decide), hchallenge _ rfl rfl rfl (by decide),
      hcryptogram _ rfl rfl rfl (by decide)⟩

end Session

end CardChannel
