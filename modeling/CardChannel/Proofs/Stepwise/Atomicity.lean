import CardChannel.Dialogue.Trace
import CardChannel.Proofs.Channel.Calls
import CardChannel.Proofs.Stepwise.Channel

/-! Failures of a channel that is written to as it goes.  `Reached` are the states that a new channel
can get into by any operations, whatever the card answers.  They all have room for what `wrap` adds
to a command, so that in each of them whatever can fail in `wrap` after the first write succeeds
(`Seals`), and an operation that fails leaves the channel as it was: `failures_change_nothing`. -/

namespace CardChannel.Stepwise

open Channel (markSecure macInput)

/-- One operation, with any reply of the card and any failure of the reader. -/
inductive Operates (ch : Channel) : Channel → Prop where
  | wrap (c : Command) : Operates ch (wrap ch c).2
  | unwrap (r : Response) : Operates ch (unwrap ch r).2
  | transmit {c : Command} {events : List Dialogue.Event} {result : Except Error Response}
      {next : Channel} (exchange : Dialogue.Trace (transmit ch c) events (result, next)) :
      Operates ch next

/-- The states of a channel, from `new` on. -/
inductive Reached (new : Channel) : Channel → Prop where
  | new : Reached new new
  | step {ch next : Channel} (before : Reached new ch) (operates : Operates ch next) :
      Reached new next

/-- Whatever `wrap` calls once the channel has been written to succeeds: the chaining value is
encrypted to `initial`, the MAC is computed, the payload is encrypted to `body`, and the command has
the byte form `bytes`. -/
structure Seals (ch : Channel) (c : Command) (initial tag : Block) (body bytes : List UInt8) :
    Prop where
  starts : nextInitial (ch.remember c) = .ok initial
  signs : mac (ch.remember c).keys.mac initial (macInput (ch.remember c).options c) = .ok tag
  protects : protectPayload { ch.remember c with icv := some tag } c.payload = .ok body
  writes : ({ c with cla := markSecure c.cla, data := some (body ++ tag.toBytes) } :
    Command).toBytes = .ok bytes

variable {new ch next : Channel} {c : Command} {r : Response} {error : Error}

/-! ### What stays the same -/

open Dialogue in
theorem Operates.continues (h : Operates ch next) (hf : ch.Fits) : Channel.Continues ch next := by
  cases h with
  | wrap c =>
    rw [wrap_eq hf]
    exact (ch.performed_wrap c).continues
  | unwrap r =>
    rw [unwrap_eq]
    exact ch.continues_unwrap r
  | @transmit c events result next exchange =>
    rw [transmit_eq hf] at exchange
    by_cases hle : c.payload.length ≤ ch.maxData
    · obtain ⟨bytes, hbytes⟩ := hf.exists_toBytes hle
      rw [Channel.transmit_of_le hle hbytes] at exchange
      cases exchange with
      | @send _ _ reply _ _ rest =>
        obtain rfl : next = ((ch.advance c).receive reply).2 :=
          congrArg Prod.snd (trace_done_iff.mp rest).2
        exact Channel.continues_of_received rfl
    · rw [Channel.transmit_of_lt (Nat.lt_of_not_le hle)] at exchange
      obtain rfl : next = ch := congrArg Prod.snd (trace_done_iff.mp exchange).2
      exact .refl next

theorem Reached.continues (h : Reached new ch) (hf : new.Fits) : Channel.Continues new ch := by
  induction h with
  | new => exact .refl new
  | step _ operates ih => exact ih.trans (operates.continues (ih.fits hf))

/-! ### One failure -/

theorem exists_seals (hf : ch.Fits) (hmac : ch.level.cMac = true)
    (hle : c.payload.length ≤ ch.maxData) :
    ∃ initial tag body bytes, Seals ch c initial tag body bytes := by
  obtain ⟨bytes, hbytes⟩ := hf.exists_toBytes hle
  rw [Channel.protect_of_true hmac, ← protectPayload_remember] at hbytes
  have hkeys := continues_remember ch c
  refine ⟨_, ch.commandMac c, _, bytes, nextInitial_eq _, ?_, protectPayload_eq _ _, hbytes⟩
  rw [mac_eq, hkeys.keys, hkeys.options, nextInitial_remember]
  rfl

theorem exists_wrap_eq_error_iff (hf : ch.Fits) (c : Command) :
    (∃ error, (wrap ch c).1 = .error error) ↔ ch.maxData < c.payload.length := by
  rw [wrap_eq hf]
  constructor
  · rintro ⟨error, h⟩
    refine Nat.lt_of_not_le fun hle => ?_
    rw [Channel.wrap_of_le hle] at h
    cases h
  · intro hlt
    exact ⟨_, congrArg Prod.fst (Channel.wrap_of_lt hlt)⟩

theorem eq_of_wrap_eq_error (hf : ch.Fits) (h : (wrap ch c).1 = .error error) :
    error = .dataTooLong c.payload.length ch.maxData ∧ (wrap ch c).2 = ch := by
  have hlt := (exists_wrap_eq_error_iff hf c).mp ⟨error, h⟩
  rw [wrap_eq hf, Channel.wrap_of_lt hlt] at h ⊢
  exact ⟨(Except.error.inj h).symm, rfl⟩

theorem eq_of_unwrap_eq_error (h : (unwrap ch r).1 = .error error) :
    ch.level.rMac = true ∧
      ((∃ detail, error = .protocol detail) ∨ ∃ detail, error = .authenticationFailed detail) ∧
      (unwrap ch r).2 = ch := by
  have hl : ch.level.rMac = true := by
    cases hl : ch.level.rMac with
    | true => rfl
    | false =>
      rw [unwrap, if_pos hl] at h
      cases h
  rw [unwrap_eq] at h ⊢
  obtain ⟨cause, hu, hcause⟩ | ⟨plain, icv, hu⟩ := ch.unwrap_cases r <;> rw [hu] at h ⊢ <;> cases h
  refine ⟨hl, ?_, rfl⟩
  rcases hcause with rfl | rfl | rfl
  · exact .inl ⟨_, rfl⟩
  · exact .inl ⟨_, rfl⟩
  · exact .inr ⟨_, rfl⟩

/-! ### All failures -/

/-- In every state that a new channel gets into, `wrap` fails exactly for more data than the channel
takes, and says so; `unwrap` fails for want of a response MAC only.  Both then leave the channel as
it was.  No other failure can come after `wrap` has written to the channel. -/
theorem failures_change_nothing {keys : SessionKeys} {options : Options} {level : SecurityLevel}
    {seed : Option Block} {max : Nat}
    (created : Channel.create keys options level seed max = .ok new) (reached : Reached new ch) :
    (∀ c, wrap ch c = ch.wrap c) ∧ (∀ r, unwrap ch r = ch.unwrap r) ∧
    (∀ c, (∃ error, (wrap ch c).1 = .error error) ↔ ch.maxData < c.payload.length) ∧
    (∀ c error, (wrap ch c).1 = .error error →
      error = .dataTooLong c.payload.length ch.maxData ∧ (wrap ch c).2 = ch) ∧
    (∀ r error, (unwrap ch r).1 = .error error →
      level.rMac = true ∧
        ((∃ detail, error = .protocol detail) ∨ ∃ detail, error = .authenticationFailed detail) ∧
        (unwrap ch r).2 = ch) ∧
    ∀ c, level.cMac = true → c.payload.length ≤ ch.maxData →
      ∃ initial tag body bytes, Seals ch c initial tag body bytes := by
  have hfresh := Channel.fresh_of_create created
  have hsame := reached.continues hfresh.fits
  have hf := hsame.fits hfresh.fits
  obtain rfl : ch.level = level := hsame.level.trans hfresh.level
  exact ⟨wrap_eq hf, unwrap_eq ch, exists_wrap_eq_error_iff hf, fun c error => eq_of_wrap_eq_error hf,
    fun r error => eq_of_unwrap_eq_error, fun c => exists_seals hf⟩

section Sample

open Channel (sample sampleSent sampleCommand sampleLong sampleKeys sampleLevel sampleSeed)

open Dialogue in
/-- The command was sent, and the answer did not come back. -/
theorem reached_sampleSent : Reached sample sampleSent := by
  have hf : sample.Fits := Channel.fits_of_create Channel.create_sample
  have hle : sampleCommand.payload.length ≤ sample.maxData := by decide
  have hadvance : sample.advance sampleCommand = sampleSent :=
    congrArg Prod.snd ((Channel.wrap_of_le hle).symm.trans Channel.wrap_sample)
  obtain ⟨bytes, hbytes⟩ := hf.exists_toBytes hle
  have hlost : Trace (transmit sample sampleCommand) [.sent bytes (.error .timeout)]
      (.error (.transport .timeout), sampleSent) := by
    rw [transmit_eq hf, Channel.transmit_of_le hle hbytes, ← hadvance]
    exact .send (.done _)
  exact .step .new (.transmit hlost)

/-- A command that is too long and a response that is too short. -/
theorem failures_change_nothing_sample :
    Channel.create sampleKeys .default sampleLevel (some sampleSeed) 255 = .ok sample ∧
    Reached sample sampleSent ∧
    (wrap sampleSent sampleLong).1 = .error (.dataTooLong 240 239) ∧
    (wrap sampleSent sampleLong).2 = sampleSent ∧
    (unwrap sampleSent (.success [])).1 = .error Channel.responseTooShort ∧
    (unwrap sampleSent (.success [])).2 = sampleSent ∧
    sampleLevel.cMac = true ∧ sampleCommand.payload.length ≤ sampleSent.maxData ∧
    ∃ initial tag body bytes, Seals sampleSent sampleCommand initial tag body bytes := by
  obtain ⟨hwrap, hunwrap, -, hlong, hshort, hseals⟩ :=
    failures_change_nothing Channel.create_sample reached_sampleSent
  have hle : sampleCommand.payload.length ≤ sampleSent.maxData := by decide
  have hlongFails : (wrap sampleSent sampleLong).1 = .error (.dataTooLong 240 239) := by
    rw [hwrap, Channel.wrap_sampleLong]
  have hshortFails : (unwrap sampleSent (.success [])).1 = .error Channel.responseTooShort := by
    rw [hunwrap, Channel.unwrap_of_lt rfl (by decide)]
  exact ⟨Channel.create_sample, reached_sampleSent, hlongFails, (hlong _ _ hlongFails).2,
    hshortFails, (hshort _ _ hshortFails).2.2, rfl, hle, hseals sampleCommand rfl hle⟩

end Sample

end CardChannel.Stepwise
