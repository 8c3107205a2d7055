import CardChannel.Proofs.Card
import CardChannel.Proofs.Stepwise.Session

/-! How operations fail.  An operation that `Refusal` lists is turned down and changes nothing.  Any
other failure comes after something was sent, be it the card that fails or the provider of the keys,
and it closes the session: from then on every operation that needs a channel fails without sending,
until a channel is opened again.  `fail_closed` says so of a session whose stage and channel are
fields of their own, where a failure could forget one of them. -/

namespace CardChannel

namespace Session

open Dialogue

variable {s next last : Session} {operation : Operation} {events : List Event}
  {result : Except Error Answer} {steps : List Step}

theorem Transition.closed_of_closed (h : s.Transition operation events result next)
    (hclosed : s.channel? = none) (hr : result ≠ .ok .opened) : next.channel? = none := by
  cases h with
  | refused | encrypted => exact hclosed
  | opened => exact absurd rfl hr
  | carried _ stage => exact absurd hclosed (channel?_ne_none stage)
  | _ => rfl

theorem Transition.fails_of_closed (h : s.Transition operation events result next)
    (hclosed : s.channel? = none) (hop : operation.usesChannel) :
    ∃ error, result = .error error ∧ events = [] := by
  cases h with
  | refused => exact ⟨_, rfl, rfl⟩
  | lost _ stage | carried _ stage | encrypted stage =>
    exact absurd hclosed (channel?_ne_none stage)
  | _ => cases hop

/-- Without a channel, nothing is sent over one until one is opened. -/
theorem fails_until_opened (hs : s.Sound) (hclosed : s.channel? = none) (h : Run s steps last)
    (hr : ∀ step ∈ steps, step.result ≠ .ok .opened) :
    ∀ step ∈ steps, step.operation.usesChannel →
      ∃ error, step.result = .error error ∧ step.events = [] := by
  induction h with
  | done => exact fun _ hmem => nomatch hmem
  | step first tail ih =>
    obtain ⟨ht, hnext⟩ := hs.step first
    intro step hmem
    rcases List.mem_cons.mp hmem with rfl | hmem
    · exact ht.fails_of_closed hclosed
    · refine ih hnext (ht.closed_of_closed hclosed (hr _ List.mem_cons_self)) ?_ step hmem
      exact fun later hlater => hr later (List.mem_cons_of_mem _ hlater)

/-- A failure that is not a refusal comes after something was sent. -/
theorem Transition.sent_of_error {error : Error}
    (h : s.Transition operation events (.error error) next) (hr : ¬ s.Refuses operation error) :
    Step.exchanges ⟨s.keys, operation, events, .error error⟩ ≠ [] ∧ next = s.enter .failed := by
  cases h with
  | refused refuses => exact absurd refuses hr
  | _ => exact ⟨by simp [Step.exchanges], rfl⟩

end Session

namespace Stepwise

open Dialogue

/-- A refused operation sends nothing and changes nothing, and `Refuses` lists all operations that
fail so.  After any other failure something was sent and the session is without a channel, and every
operation over a channel fails at once until a channel is opened. -/
theorem fail_closed {f next : Fields} {keys : KeyProvider} {operation : Operation}
    {events : List Event} {result : Except Error Answer} (hf : f.Reachable)
    (ht : Trace (f.perform keys operation) events (result, next)) :
    (∀ error, f.Refuses operation error → result = .error error ∧ events = [] ∧ next = f) ∧
    ∀ error, result = .error error → ¬ f.Refuses operation error →
      Step.exchanges ⟨keys, operation, events, result⟩ ≠ [] ∧
      next.phase = .failed ∧ next.channel = none ∧
      ∀ steps last, Fields.Run next steps last → (∀ step ∈ steps, step.result ≠ .ok .opened) →
        ∀ step ∈ steps, step.operation.usesChannel →
          ∃ error, step.result = .error error ∧ step.events = [] := by
  obtain ⟨s, hreachable, rfl⟩ := Fields.reachable_iff.mp hf
  obtain ⟨after, htrace, rfl⟩ := (trace_fields_iff hreachable.sound).mp ht
  obtain ⟨htransition, hafter⟩ := hreachable.sound.step htrace
  simp only [refuses_fields]
  constructor
  · intro error hr
    rw [Session.perform_of_refuses (s := s.withKeys keys) hr] at htrace
    obtain ⟨rfl, h⟩ := trace_done_iff.mp htrace
    cases h
    exact ⟨rfl, rfl, rfl⟩
  · rintro error rfl hr
    obtain ⟨hsent, rfl⟩ := htransition.sent_of_error hr
    refine ⟨hsent, rfl, rfl, fun steps last hrun hopened => ?_⟩
    obtain ⟨_, hsteps, -⟩ := (run_fields_iff hafter).mp hrun
    exact Session.fails_until_opened hafter rfl hsteps hopened

/-- A provider that gives no key. -/
def locked : KeyProvider where
  lookup _ _ := .error (.crypto "locked")

/-- A reply to INITIALIZE UPDATE that is as it should be, as far as can be told without keys. -/
def keylessReply : List UInt8 :=
  List.replicate 10 0x00 ++ [0x01, 0x02] ++ List.replicate 16 0x00 ++ [0x90, 0x00]

/-- The card has answered, but the provider gives no key. -/
theorem fail_closed_locked :
    Card.unmodified.fields.Reachable ∧
    Trace (Card.unmodified.fields.perform locked (.openChannel .cMacOnly))
      [.drawn .zero, .sent (InitializeUpdate.bytes 0 .zero) (.ok keylessReply)]
      (.error (.crypto "locked"), Card.unmodified.fields.fail) ∧
    Card.unmodified.fields.fail.phase = .failed ∧
    ∀ steps last, Fields.Run Card.unmodified.fields.fail steps last →
      (∀ step ∈ steps, step.result ≠ .ok .opened) →
      ∀ step ∈ steps, step.operation.usesChannel →
        ∃ error, step.result = .error error ∧ step.events = [] := by
  have hf : Card.unmodified.fields.Reachable :=
    Fields.reachable_iff.mpr ⟨_, Card.reachable_unmodified, rfl⟩
  have htrace : Trace (Card.unmodified.fields.perform locked (.openChannel .cMacOnly))
      [.drawn .zero, .sent (InitializeUpdate.bytes 0 .zero) (.ok keylessReply)]
      (.error (.crypto "locked"), Card.unmodified.fields.fail) :=
    .draw (.send (.done _))
  have hr : ¬ Card.unmodified.fields.Refuses (.openChannel .cMacOnly) (.crypto "locked") := by
    rintro (⟨invalid⟩)
    cases invalid
  obtain ⟨-, hphase, -, hlater⟩ := (fail_closed hf htrace).2 _ rfl hr
  exact ⟨hf, htrace, hphase, hlater⟩

end Stepwise

end CardChannel
