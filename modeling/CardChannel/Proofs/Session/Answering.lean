import CardChannel.Proofs.Session.Invariant
import CardChannel.Proofs.Session.Wire

/-! Which handshake EXTERNAL AUTHENTICATE answers.  A handshake is a value that the caller keeps,
and the session does not remember which one it waits for, but only that it waits for one.  So
EXTERNAL AUTHENTICATE is sent for whatever handshake it is given, and that is not always the one of
the last INITIALIZE UPDATE: a handshake that has failed can be given again once another one has been
accepted (`externalAuthenticate_stale`).  It is the one of the last INITIALIZE UPDATE if nothing
else has been started since, and always inside `openChannel` (`externalAuthenticate_answers`). -/

namespace CardChannel

/-- A handshake that one of the steps gave to its caller. -/
def Issued (steps : List Step) (h : Handshake) : Prop :=
  ∃ step ∈ steps, step.result = .ok (.handshake h)

section LastStart

variable {log : List Exchange} {x y : Exchange}

theorem LastStart.concat (h : x.Starts) : LastStart (log ++ [x]) x :=
  ⟨h, log, [], rfl, fun _ hmem => absurd hmem List.not_mem_nil⟩

theorem LastStart.unique (hx : LastStart log x) (hy : LastStart log y) : x = y := by
  obtain ⟨hxstarts, front, back, hlog, hback⟩ := hx
  obtain ⟨hystarts, front', back', hlog', hback'⟩ := hy
  rcases List.append_eq_append_iff.mp (hlog.symm.trans hlog') with
    ⟨between, -, hrest⟩ | ⟨between, -, hrest⟩
  -- Of two different positions, the earlier one would have the other behind it.
  all_goals cases between with
    | nil => simp_all
    | cons z between =>
      obtain ⟨rfl, rfl⟩ := List.cons.inj hrest
      first
      | exact absurd hystarts (hback y (List.mem_append_right _ List.mem_cons_self))
      | exact absurd hxstarts (hback' x (List.mem_append_right _ List.mem_cons_self))

end LastStart

namespace Session

open Dialogue Stepwise

variable {s next last : Session} {log : List Exchange} {x : Exchange} {h h' : Handshake}
  {steps : List Step} {level : SecurityLevel}

theorem Accepted.exchangeStarts (ha : s.Accepted x h) : x.Starts :=
  have ⟨keyVersion, happ, _⟩ := ha.accepts
  ⟨ha.starts, keyVersion, h.hostChallenge, happ⟩

/-- A reply is accepted for one handshake only. -/
theorem Accepted.unique (ha : s.Accepted x h) (ha' : s.Accepted x h') : h = h' := by
  obtain ⟨keyVersion, happ, hjudge⟩ := ha.accepts
  obtain ⟨keyVersion', happ', hjudge'⟩ := ha'.accepts
  obtain ⟨rfl, hchallenge⟩ := InitializeUpdate.bytes_inj.mp (happ.symm.trans happ')
  rw [hchallenge] at hjudge
  exact Except.ok.inj (hjudge.symm.trans hjudge')

/-- The handshake of the last INITIALIZE UPDATE of a record. -/
def Awaits (s : Session) (log : List Exchange) (h : Handshake) : Prop :=
  ∃ x, LastStart log x ∧ s.Accepted x h

/-- EXTERNAL AUTHENTICATE with the host cryptogram and the MAC of the last INITIALIZE UPDATE. -/
def Answered (s : Session) (log : List Exchange) (level : SecurityLevel) (apdu : List UInt8) :
    Prop :=
  ∃ h, s.Awaits log h ∧ apdu = h.finalBytes s.options level

/-- Whether a reply is accepted depends neither on the stage nor on the provider that the session has
by now. -/
theorem Accepted.of_enter {keys : KeyProvider} {stage : Stage}
    (ha : ((s.withKeys keys).enter stage).Accepted x h) : s.Accepted x h :=
  ⟨ha.starts, ha.accepts, ha.verified⟩

theorem Awaits.unique (h₁ : s.Awaits log h) (h₂ : s.Awaits log h') : h = h' := by
  obtain ⟨x, hlast, haccepted⟩ := h₁
  obtain ⟨x', hlast', haccepted'⟩ := h₂
  obtain rfl := hlast.unique hlast'
  exact haccepted.unique haccepted'

theorem Awaits.answered_iff {apdu : List UInt8} (ha : s.Awaits log h) :
    s.Answered log level apdu ↔ apdu = h.finalBytes s.options level := by
  constructor
  · rintro ⟨h', ha', rfl⟩
    rw [ha.unique ha']
  · exact fun happ => ⟨h, ha, happ⟩

/-- A session that waits for EXTERNAL AUTHENTICATE has nothing after its INITIALIZE UPDATE. -/
theorem Logged.exists_awaits (hl : s.Logged .challenged log) : ∃ h, s.Awaits log h := by
  obtain ⟨finished, current, rfl, -, x, h, rfl, haccepted⟩ := hl
  exact ⟨h, x, .concat haccepted.exchangeStarts, haccepted⟩

section Transition

variable {operation : Operation} {events : List Event} {result : Except Error Answer}
  {y : Exchange}

theorem Transition.of_issued (ht : s.Transition operation events (.ok (.handshake h)) next) :
    ∃ x, Step.exchanges ⟨s.keys, operation, events, .ok (.handshake h)⟩ = [x] ∧ s.Accepted x h := by
  generalize hresult : (.ok (.handshake h) : Except Error Answer) = result at ht
  cases ht with
  | challenged draws judged =>
    cases hresult
    exact ⟨_, exchanges_of_draws draws _ _ _, accepted_of_judge rfl rfl judged⟩
  | carried command =>
    cases operation <;> cases hresult
  | _ => cases hresult

theorem Transition.of_externalAuthenticate
    (ht : s.Transition (.externalAuthenticate h level) events result next)
    (hy : y ∈ Step.exchanges ⟨s.keys, .externalAuthenticate h level, events, result⟩) :
    s.stage = .challenged ∧ y.apdu = h.finalBytes s.options level := by
  cases ht with
  | refused => exact absurd hy List.not_mem_nil
  | notAuthenticated stage | authenticated stage =>
    obtain rfl := List.mem_singleton.mp hy
    exact ⟨stage, rfl⟩
  | lost command | carried command => cases command

theorem Transition.of_openChannel (ht : s.Transition (.openChannel level) events result next)
    (hxy : Step.exchanges ⟨s.keys, .openChannel level, events, result⟩ = [x, y]) :
    ∃ h, s.Accepted x h ∧ y.apdu = h.finalBytes s.options level := by
  cases ht with
  | refused | openNotChallenged => cases hxy
  | openNotAuthenticated _ judged _ | opened judged _ _ =>
    cases hxy
    exact ⟨_, accepted_of_judge rfl rfl judged, rfl⟩
  | lost command | carried command => cases command

end Transition

/-- What EXTERNAL AUTHENTICATE for `h`, sent after these steps, is an answer to. -/
structure Finishes (s : Session) (before : List Step) (h : Handshake) (level : SecurityLevel)
    (apdu : List UInt8) : Prop where
  sent : apdu = h.finalBytes s.options level
  /-- If the handshake was given to the caller before, then a reply was accepted for it. -/
  origin : Issued before h → ∃ x ∈ wire before, s.Accepted x h
  current : ∃ current, s.Awaits (wire before) current ∧
    (s.Answered (wire before) level apdu ↔ h.hostCryptogram = current.hostCryptogram ∧
      h.finalMac s.options level = current.finalMac s.options level)
  /-- No INITIALIZE UPDATE was sent since the handshake was given to the caller. -/
  fresh : ∀ older issuing between, before = older ++ issuing :: between →
    issuing.result = .ok (.handshake h) → (∀ x ∈ wire between, ¬ x.Starts) →
    s.Answered (wire before) level apdu

section Created

variable {keys : KeyProvider} {card : CardProfile} {config : Config} {new : Session}
  {before after : List Step} {step : Step}

theorem exists_transition (hnew : create keys card config = .ok new)
    (hrun : Run new (before ++ step :: after) last) :
    ∃ stage next, new.Logged stage (wire before) ∧
      ((new.withKeys step.keys).enter stage).Transition step.operation step.events step.result
        next := by
  have hs := sound_of_create hnew
  have henter : new = (new.withKeys keys).enter .new := by
    obtain ⟨-, -, rfl⟩ := create_eq_ok_iff.mp hnew
    rfl
  have hlogged : new.Logged .new [] :=
    ⟨[], [], rfl, fun _ hmem => absurd hmem List.not_mem_nil, rfl⟩
  obtain ⟨mid, hbefore, hstep⟩ := hrun.of_append
  rw [henter] at hs hbefore
  obtain ⟨keys', stage, rfl, hlogged⟩ := hlogged.run hs hbefore
  cases hstep with
  | step first tail => exact ⟨stage, _, hlogged, ((hs.run hbefore).step first).1⟩

/-- A handshake that a step gave to its caller is the one that this step had accepted. -/
theorem exists_accepted (hnew : create keys card config = .ok new)
    (hrun : Run new (before ++ step :: after) last) (hresult : step.result = .ok (.handshake h)) :
    ∃ x, step.exchanges = [x] ∧ new.Accepted x h := by
  obtain ⟨stage, next, -, ht⟩ := exists_transition hnew hrun
  obtain ⟨_, operation, events, result⟩ := step
  obtain rfl : result = .ok (.handshake h) := hresult
  obtain ⟨x, hx, haccepted⟩ := ht.of_issued
  exact ⟨x, hx, haccepted.of_enter⟩

theorem exists_accepted_of_issued (hnew : create keys card config = .ok new)
    (hrun : Run new (before ++ after) last) (hissued : Issued before h) :
    ∃ x ∈ wire before, new.Accepted x h := by
  obtain ⟨step, hmem, hresult⟩ := hissued
  obtain ⟨older, between, rfl⟩ := List.append_of_mem hmem
  rw [List.append_assoc, List.cons_append] at hrun
  obtain ⟨x, hx, haccepted⟩ := exists_accepted hnew hrun hresult
  exact ⟨x, by simp [wire, hx], haccepted⟩

theorem awaits_of_issuing {older between : List Step} {issuing : Step}
    (hnew : create keys card config = .ok new)
    (hrun : Run new (older ++ issuing :: between ++ after) last)
    (hresult : issuing.result = .ok (.handshake h)) (hquiet : ∀ x ∈ wire between, ¬ x.Starts) :
    new.Awaits (wire (older ++ issuing :: between)) h := by
  rw [List.append_assoc, List.cons_append] at hrun
  obtain ⟨x, hx, haccepted⟩ := exists_accepted hnew hrun hresult
  have hlast : LastStart (wire older ++ [x] ++ wire between) x :=
    LastStart.append (.concat haccepted.exchangeStarts) hquiet
  exact ⟨x, by simpa [wire, hx] using hlast, haccepted⟩

/-- EXTERNAL AUTHENTICATE is sent for the handshake that it is given.  It answers the last
INITIALIZE UPDATE if no other one was sent since that handshake was accepted, and else only if the
two handshakes have the same cryptogram and MAC.  The one that `openChannel` sends always does. -/
theorem externalAuthenticate_answers {f : Fields} (hnew : create keys card config = .ok new)
    (hfields : Fields.Run new.fields (before ++ step :: after) f) :
    (∀ h level y, step.operation = .externalAuthenticate h level → y ∈ step.exchanges →
      new.Finishes before h level y.apdu) ∧
    ∀ level x y, step.operation = .openChannel level → step.exchanges = [x, y] →
      new.Answered (wire before ++ [x]) level y.apdu := by
  obtain ⟨last, hrun, rfl⟩ := (run_fields_iff (sound_of_create hnew)).mp hfields
  obtain ⟨stage, next, hlogged, ht⟩ := exists_transition hnew hrun
  obtain ⟨_, operation, events, result⟩ := step
  constructor
  · rintro h level y rfl hy
    obtain ⟨hstage, hsent⟩ := ht.of_externalAuthenticate hy
    obtain rfl : stage = .challenged := hstage
    -- The stage says that a handshake is awaited, but not that it is the one given.
    obtain ⟨current, hawaits⟩ := hlogged.exists_awaits
    refine ⟨hsent, exists_accepted_of_issued hnew hrun, ⟨current, hawaits, ?_⟩, ?_⟩
    · rw [hawaits.answered_iff, hsent]
      exact Handshake.finalBytes_inj
    · rintro older issuing between rfl hresult hquiet
      exact ⟨h, awaits_of_issuing hnew hrun hresult hquiet, hsent⟩
  · rintro level x y rfl hxy
    obtain ⟨h, haccepted, hsent⟩ := ht.of_openChannel hxy
    exact ⟨h, ⟨x, .concat haccepted.exchangeStarts, haccepted.of_enter⟩, hsent⟩

end Created

/-! ### A handshake that is given again after it has failed -/

/-- The card rejects the host cryptogram of one handshake, and another handshake is started. -/
def renewedSteps (s : Session) (failed current : Handshake) (level : SecurityLevel) : List Step :=
  [⟨s.keys, .initializeUpdate 0 (some failed.hostChallenge),
      [.sent (InitializeUpdate.bytes 0 failed.hostChallenge) (.ok failed.reply.bytes)],
      .ok (.handshake failed)⟩,
    ⟨s.keys, .externalAuthenticate failed level,
      [.sent (failed.finalBytes s.options level) (.ok [0x63, 0x00])],
      .error .hostCryptogramRejected⟩,
    ⟨s.keys, .initializeUpdate 0 (some current.hostChallenge),
      [.sent (InitializeUpdate.bytes 0 current.hostChallenge) (.ok current.reply.bytes)],
      .ok (.handshake current)⟩]

/-- EXTERNAL AUTHENTICATE is sent for a handshake, and the card accepts it. -/
def confirmedStep (s : Session) (h : Handshake) (level : SecurityLevel) : Step :=
  ⟨s.keys, .externalAuthenticate h level, [.sent (h.finalBytes s.options level) (.ok [0x90, 0x00])],
    .ok (.mac (h.finalMac s.options level))⟩

section Renewed

variable {failed current : Handshake}

theorem run_renewed (hs : s.Sound) (hlevel : level.validate = .ok ())
    (hfailed : s.judge 0 failed.hostChallenge (.ok failed.reply.bytes) = .ok failed)
    (hcurrent : s.judge 0 current.hostChallenge (.ok current.reply.bytes) = .ok current)
    (h : Handshake) :
    Run s (s.renewedSteps failed current level ++ [s.confirmedStep h level])
      (s.enter .authenticated) := by
  have hfirst : s.Transition _ _ _ (s.enter .challenged) := .challenged (.chosen _) hfailed
  have hreject : (s.enter .challenged).Transition (.externalAuthenticate failed level)
      [.sent (failed.finalBytes s.options level) (.ok [0x63, 0x00])] _ (s.enter .failed) :=
    .notAuthenticated rfl hlevel rfl
  have hsecond : (s.enter .failed).Transition _ _ _ (s.enter .challenged) :=
    .challenged (.chosen _) hcurrent
  have hconfirm : (s.enter .challenged).Transition (.externalAuthenticate h level)
      [.sent (h.finalBytes s.options level) (.ok [0x90, 0x00])] _ (s.enter .authenticated) :=
    .authenticated rfl hlevel rfl
  have hchallenged := hfirst.sound hs
  exact .step (hs.trace_of_transition hfirst) <|
    .step (hchallenged.trace_of_transition hreject) <|
    .step ((hreject.sound hchallenged).trace_of_transition hsecond) <|
    .step (hchallenged.trace_of_transition hconfirm) (.done _)

theorem awaits_renewed
    (hcurrent : s.judge 0 current.hostChallenge (.ok current.reply.bytes) = .ok current) :
    s.Awaits (wire (s.renewedSteps failed current level)) current := by
  have haccepted : s.Accepted ⟨s.keys, .initializeUpdate 0 (some current.hostChallenge),
      InitializeUpdate.bytes 0 current.hostChallenge, .ok current.reply.bytes⟩ current :=
    accepted_of_judge rfl rfl hcurrent
  show s.Awaits ([_, _] ++ [_]) current
  exact ⟨_, .concat haccepted.exchangeStarts, haccepted⟩

end Renewed

/-- A handshake of `sample` with a card that still has the challenge of its sequence counter. -/
def sampleHandshake (hostChallenge cardCryptogram : Block) : Handshake :=
  let counter : SequenceCounter := ⟨[0x00, 0x02], rfl⟩
  let key (usage : KeyUsage) : SessionKey := .derive KeySet.defaultKey usage counter
  ⟨hostChallenge,
    ⟨⟨[0x00, 0x00, 0x00, 0x00, 0x00, 0x00, 0x00, 0x00, 0x00, 0x00], rfl⟩, 0x01, 0x02, counter,
      ⟨[0xD9, 0x85, 0x7D, 0x53, 0x2F, 0x04], rfl⟩, cardCryptogram⟩,
    ⟨key .enc, key .mac, key .dek, key .rMac⟩⟩

def failedHandshake : Handshake := sampleHandshake sampleChallenge ⟨0xEFA4524D0C247265⟩

def renewedHandshake : Handshake := sampleHandshake ⟨0xE4C522735415CC5D⟩ ⟨0xAD471A7F0909C653⟩

theorem create_sample : create KeySet.default ⟨none, none⟩ .default = .ok sample := rfl

theorem judge_sampleHandshake {hostChallenge cardCryptogram : Block}
    (hcard : Cryptogram.card ⟨⟨0xADC1163BA2A147FB⟩, ⟨0xB84BF44C8676FB7D⟩⟩ ⟨[0x00, 0x02], rfl⟩
      ⟨[0xD9, 0x85, 0x7D, 0x53, 0x2F, 0x04], rfl⟩ hostChallenge = cardCryptogram) :
    let h := sampleHandshake hostChallenge cardCryptogram
    sample.judge 0 h.hostChallenge (.ok h.reply.bytes) = .ok h := by
  have henc : SessionKey.derive KeySet.defaultKey .enc ⟨[0x00, 0x02], rfl⟩ =
      ⟨⟨0xADC1163BA2A147FB⟩, ⟨0xB84BF44C8676FB7D⟩⟩ := by
    decide +kernel
  rw [← henc] at hcard
  exact Handshake.judge_payload rfl (.inl rfl) rfl hcard

theorem judge_failedHandshake :
    sample.judge 0 failedHandshake.hostChallenge (.ok failedHandshake.reply.bytes) =
      .ok failedHandshake :=
  judge_sampleHandshake (by decide +kernel)

theorem judge_renewedHandshake :
    sample.judge 0 renewedHandshake.hostChallenge (.ok renewedHandshake.reply.bytes) =
      .ok renewedHandshake :=
  judge_sampleHandshake (by decide +kernel)

theorem run_sample (h : Handshake) :
    Fields.Run sample.fields (sample.renewedSteps failedHandshake renewedHandshake .cMacOnly ++
      [sample.confirmedStep h .cMacOnly]) (sample.enter .authenticated).fields :=
  have hs := sound_of_create create_sample
  (run_fields_iff hs).mpr
    ⟨_, run_renewed hs rfl judge_failedHandshake judge_renewedHandshake h, rfl⟩

/-- The handshake that was accepted last is given. -/
theorem externalAuthenticate_answers_sample :
    create KeySet.default ⟨none, none⟩ .default = .ok sample ∧
      Fields.Run sample.fields (sample.renewedSteps failedHandshake renewedHandshake .cMacOnly ++
        [sample.confirmedStep renewedHandshake .cMacOnly]) (sample.enter .authenticated).fields ∧
      sample.Answered (wire (sample.renewedSteps failedHandshake renewedHandshake .cMacOnly))
        .cMacOnly (renewedHandshake.finalBytes .default .cMacOnly) := by
  have hrun := run_sample renewedHandshake
  obtain ⟨hfinishes, -⟩ := externalAuthenticate_answers create_sample hrun
  refine ⟨create_sample, hrun, ?_⟩
  exact (hfinishes _ _ _ rfl List.mem_cons_self).fresh [_, _] _ [] rfl rfl
    fun _ hmem => absurd hmem List.not_mem_nil

/-- The handshake that the card has rejected is given, although another one was accepted since.  Its
EXTERNAL AUTHENTICATE is sent a second time, and it does not answer the last INITIALIZE UPDATE. -/
theorem externalAuthenticate_stale :
    ∃ y, create KeySet.default ⟨none, none⟩ .default = .ok sample ∧
      Fields.Run sample.fields (sample.renewedSteps failedHandshake renewedHandshake .cMacOnly ++
        [sample.confirmedStep failedHandshake .cMacOnly]) (sample.enter .authenticated).fields ∧
      Issued (sample.renewedSteps failedHandshake renewedHandshake .cMacOnly) failedHandshake ∧
      y ∈ (sample.confirmedStep failedHandshake .cMacOnly).exchanges ∧
      ¬ sample.Answered (wire (sample.renewedSteps failedHandshake renewedHandshake .cMacOnly))
        .cMacOnly y.apdu := by
  refine ⟨_, create_sample, run_sample failedHandshake, ⟨_, List.mem_cons_self, rfl⟩,
    List.mem_cons_self, ?_⟩
  rw [(awaits_renewed judge_renewedHandshake).answered_iff]
  intro hsame
  obtain ⟨hcryptogram, -⟩ := Handshake.finalBytes_inj.mp hsame
  have hchallenge := (Cryptogram.host_hostChallenge_inj _ _).mp hcryptogram
  exact absurd hchallenge (by decide)

end Session

end CardChannel
