import CardChannel.Proofs.Completeness
import CardChannel.Proofs.Stepwise.Session

/-! What a session hands over.  All that leaves a session is a sequence of attempts: INITIALIZE
UPDATE, then possibly EXTERNAL AUTHENTICATE, then possibly secured commands.  Secured commands
follow only where a channel was opened, and each is the next one of that channel. -/

namespace CardChannel

open Dialogue

/-- `c` goes out over the channel as `bytes`, and `next` is the channel afterwards.  With command
MACs the bytes end in the MAC that the next one is chained to. -/
structure Channel.Sends (ch : Channel) (c : Command) (bytes : List UInt8) (next : Channel) :
    Prop where
  wrapped : ∃ w, ch.wrap c = (.ok w, next) ∧ w.toBytes = .ok bytes ∧
    (ch.level.cMac = true → w.cla &&& 0x04 = 0x04 ∧
      ∃ body mac, w.data = some (body ++ mac.toBytes) ∧ next.icv = some mac)

/-- The exchanges lead the channel from its first state to its last, every one with success. -/
inductive Channel.Carried : Channel → List Exchange → Channel → Prop where
  | nil (ch : Channel) : Carried ch [] ch
  | snoc {first ch sent next : Channel} {front : List Exchange} {x : Exchange} {c : Command}
      {r : Response} (carried : Carried first front ch)
      (command : x.operation.command? = some c) (sends : ch.Sends c x.apdu sent)
      (received : sent.receive x.reply = (.ok r, next)) : Carried first (front ++ [x]) next

namespace Channel.Carried

variable {first mid last : Channel} {front back : List Exchange}

theorem single {ch sent next : Channel} {x : Exchange} {c : Command} {r : Response}
    (command : x.operation.command? = some c) (sends : ch.Sends c x.apdu sent)
    (received : sent.receive x.reply = (.ok r, next)) : Carried ch [x] next := by
  show Carried ch ([] ++ [x]) next
  exact .snoc (.nil ch) command sends received

theorem append (h₁ : Carried first front mid) (h₂ : Carried mid back last) :
    Carried first (front ++ back) last := by
  induction h₂ with
  | nil => rwa [List.append_nil]
  | snoc _ command sends received ih =>
    rw [← List.append_assoc]
    exact .snoc ih command sends received

theorem eq_of_nil (h : Carried first [] last) : first = last := by
  generalize hnil : ([] : List Exchange) = log at h
  cases h with
  | nil => rfl
  | snoc => exact absurd hnil.symm (by simp)

end Channel.Carried

/-- The step neither closes an open channel nor makes it fail, and it starts no handshake. -/
structure Step.Keeps (step : Step) : Prop where
  notClose : step.operation ≠ .close
  quiet : step.exchanges = [] ∨
    (∃ c, step.operation.command? = some c) ∧ ∃ answer, step.result = .ok answer

namespace Session

/-- INITIALIZE UPDATE was sent, and its reply was accepted and has the right cryptogram. -/
structure Accepted (s : Session) (x : Exchange) (h : Handshake) : Prop where
  starts : x.operation.usesChannel = false
  accepts : ∃ keyVersion, x.apdu = InitializeUpdate.bytes keyVersion h.hostChallenge ∧
    (s.withKeys x.keys).judge keyVersion h.hostChallenge x.reply = .ok h
  verified : Cryptogram.card h.keys.enc h.reply.sequenceCounter h.reply.cardChallenge
    h.hostChallenge = h.reply.cardCryptogram

/-- Two exchanges open a channel: the reply to the first was accepted, and the second is EXTERNAL
AUTHENTICATE of the same handshake and was answered 9000. -/
structure Opening (s : Session) (x y : Exchange) (ch : Channel) : Prop where
  opens : ∃ h level data, s.Accepted x h ∧ x.operation = .openChannel level ∧
    y.operation = .openChannel level ∧ y.apdu = h.finalBytes s.options level ∧
    y.reply = .ok (data ++ [0x90, 0x00]) ∧
    Channel.create h.keys s.options level (some (h.finalMac s.options level)) s.config.maxData =
      .ok ch

/-- A step that opens a channel. -/
structure Opens (s : Session) (step : Step) (ch : Channel) : Prop where
  result : step.result = .ok .opened
  exchanges : ∃ x y, step.exchanges = [x, y] ∧ s.Opening x y ch

/-- One attempt to reach a channel, with all that the channel carried. -/
inductive Attempt (s : Session) : List Exchange → Prop where
  | started {x : Exchange} {keyVersion : UInt8} {hostChallenge : Block}
      (starts : x.operation.usesChannel = false)
      (sent : x.apdu = InitializeUpdate.bytes keyVersion hostChallenge) : Attempt s [x]
  | authenticated {x y : Exchange} {accepted h : Handshake} {level : SecurityLevel}
      (accepts : s.Accepted x accepted)
      (proves : y.operation = .externalAuthenticate h level ∨ y.operation = .openChannel level)
      (sent : y.apdu = h.finalBytes s.options level) : Attempt s [x, y]
  | secured {x y : Exchange} {ch last : Channel} {carried : List Exchange}
      (opening : s.Opening x y ch) (carries : ch.Carried carried last) :
      Attempt s (x :: y :: carried)
  /-- The last command was sent, but nothing came of it. -/
  | cut {x y z : Exchange} {ch last sent : Channel} {carried : List Exchange} {c : Command}
      (opening : s.Opening x y ch) (carries : ch.Carried carried last)
      (command : z.operation.command? = some c) (sends : last.Sends c z.apdu sent)
      (fails : ∃ error, (sent.receive z.reply).1 = .error error) :
      Attempt s (x :: y :: carried ++ [z])

/-- The attempt that can still go on in a stage. -/
def Pending (s : Session) : Stage → List Exchange → Prop
  | .challenged, current => ∃ x h, current = [x] ∧ s.Accepted x h
  | .opened ch, current => ∃ x y first carried, current = x :: y :: carried ∧
      s.Opening x y first ∧ first.Carried carried ch
  | _, current => current = []

/-- The exchanges are attempts, of which the last can still go on if the stage says so. -/
def Logged (s : Session) (stage : Stage) (exchanges : List Exchange) : Prop :=
  ∃ finished current, exchanges = List.flatten finished ++ current ∧
    (∀ attempt ∈ finished, s.Attempt attempt) ∧ s.Pending stage current

variable {s next last : Session} {stage : Stage} {exchanges : List Exchange}

theorem Pending.attempt {current : List Exchange} (h : s.Pending stage current) :
    current = [] ∨ s.Attempt current := by
  cases stage with
  | challenged =>
    obtain ⟨x, h, rfl, hstarts, ⟨keyVersion, hx, -⟩, -⟩ := h
    exact .inr (.started hstarts hx)
  | opened ch =>
    obtain ⟨x, y, first, carried, rfl, hopen, hcarried⟩ := h
    exact .inr (.secured hopen hcarried)
  | _ => exact .inl h

theorem Logged.attempts (h : s.Logged stage exchanges) :
    ∃ attempts, exchanges = List.flatten attempts ∧ ∀ attempt ∈ attempts, s.Attempt attempt := by
  obtain ⟨finished, current, rfl, hfinished, hcurrent⟩ := h
  rcases hcurrent.attempt with rfl | hattempt
  · exact ⟨finished, List.append_nil _, hfinished⟩
  · refine ⟨finished ++ [current], by simp, fun attempt hmem => ?_⟩
    rcases List.mem_append.mp hmem with hmem | hmem
    · exact hfinished attempt hmem
    · exact List.mem_singleton.mp hmem ▸ hattempt

/-- A finished attempt is followed by one that can go on. -/
theorem Logged.pend {stage' : Stage} {current : List Exchange} (h : s.Logged stage exchanges)
    (hc : s.Pending stage' current) : s.Logged stage' (exchanges ++ current) := by
  obtain ⟨attempts, rfl, hattempts⟩ := h.attempts
  exact ⟨attempts, current, rfl, hattempts, hc⟩

/-- The attempt that can go on ends. -/
theorem Logged.finish {finished : List (List Exchange)} {attempt : List Exchange}
    (hf : ∀ attempt ∈ finished, s.Attempt attempt) (ha : s.Attempt attempt)
    (hp : s.Pending stage []) : s.Logged stage (List.flatten finished ++ attempt) := by
  refine ⟨finished ++ [attempt], [], by simp, fun a hmem => ?_, hp⟩
  rcases List.mem_append.mp hmem with hmem | hmem
  · exact hf a hmem
  · exact List.mem_singleton.mp hmem ▸ ha

theorem Logged.start {stage' : Stage} {attempt : List Exchange} (h : s.Logged stage exchanges)
    (ha : s.Attempt attempt) (hp : s.Pending stage' []) :
    s.Logged stage' (exchanges ++ attempt) := by
  obtain ⟨attempts, rfl, hattempts⟩ := h.attempts
  exact .finish hattempts ha hp

theorem accepted_of_judge {keyVersion : UInt8} {hostChallenge : Block} {x : Exchange}
    {h : Handshake} (hs : x.operation.usesChannel = false)
    (hx : x.apdu = InitializeUpdate.bytes keyVersion hostChallenge)
    (hj : (s.withKeys x.keys).judge keyVersion hostChallenge x.reply = .ok h) :
    s.Accepted x h := by
  obtain ⟨rfl, hverified⟩ := Handshake.cardCryptogram_of_judge hj
  exact ⟨hs, ⟨keyVersion, hx, hj⟩, hverified⟩

theorem opening_of_judge {keys : KeyProvider} {keyVersion : UInt8} {hostChallenge : Block}
    {first second : Reply} {h : Handshake} {level : SecurityLevel} {bytes : List UInt8}
    {ch : Channel} (hx : bytes = InitializeUpdate.bytes keyVersion hostChallenge)
    (hj : (s.withKeys keys).judge keyVersion hostChallenge first = .ok h)
    (hc : Handshake.confirm second = .ok ())
    (hcreate : Channel.create h.keys s.options level (some (h.finalMac s.options level))
      s.config.maxData = .ok ch) :
    s.Opening ⟨keys, .openChannel level, bytes, first⟩
      ⟨keys, .openChannel level, h.finalBytes s.options level, second⟩ ch := by
  obtain ⟨data, hdata⟩ := Handshake.confirm_eq_ok_iff.mp hc
  exact ⟨h, level, data, accepted_of_judge rfl hx hj, rfl, rfl, rfl, hdata, hcreate⟩

theorem sends_of_le {ch : Channel} {c : Command} {bytes : List UInt8}
    (hle : c.payload.length ≤ ch.maxData) (hb : (ch.protect c).toBytes = .ok bytes) :
    ch.Sends c bytes (ch.advance c) := by
  refine ⟨_, Channel.wrap_of_le hle, hb, fun hmac => ?_⟩
  rw [Channel.protect, Channel.advance, if_pos hmac, if_pos hmac]
  exact ⟨Channel.and_markSecure c.cla, _, _, rfl, rfl⟩

theorem exchanges_of_draws {keys : KeyProvider} {operation : Operation} {chosen : Option Block}
    {hostChallenge : Block} {drawn : List Event} (h : Draws chosen hostChallenge drawn)
    (apdu : List UInt8) (reply : Reply) (result : Except Error Answer) :
    Step.exchanges ⟨keys, operation, drawn ++ [.sent apdu reply], result⟩ =
      [⟨keys, operation, apdu, reply⟩] := by
  cases h <;> rfl

variable {keys : KeyProvider} {operation : Operation} {events : List Event}
  {result : Except Error Answer}

theorem Logged.step (h : s.Logged stage exchanges)
    (ht : ((s.withKeys keys).enter stage).Transition operation events result next) :
    ∃ stage', next = (s.withKeys keys).enter stage' ∧
      s.Logged stage' (exchanges ++ Step.exchanges ⟨keys, operation, events, result⟩) := by
  cases ht with
  | refused | encrypted => exact ⟨stage, rfl, by simpa [Step.exchanges] using h⟩
  | closed => exact ⟨.new, rfl, h.pend rfl⟩
  | notChallenged draws judged =>
    rw [exchanges_of_draws draws]
    exact ⟨.failed, rfl, h.start (.started rfl rfl) rfl⟩
  | challenged draws judged =>
    rw [exchanges_of_draws draws]
    exact ⟨.challenged, rfl, h.pend ⟨_, _, rfl, accepted_of_judge rfl rfl judged⟩⟩
  | notAuthenticated hst _ _ | authenticated hst _ _ =>
    obtain rfl : stage = .challenged := hst
    obtain ⟨finished, current, rfl, hfinished, x, accepted, rfl, haccepted⟩ := h
    rw [List.append_assoc]
    exact ⟨_, rfl, .finish hfinished (.authenticated haccepted (.inl rfl) rfl) rfl⟩
  | openNotChallenged _ judged => exact ⟨.failed, rfl, h.start (.started rfl rfl) rfl⟩
  | openNotAuthenticated _ judged _ =>
    exact ⟨.failed, rfl, h.start (.authenticated (accepted_of_judge rfl rfl judged)
      (.inr rfl) rfl) rfl⟩
  | opened judged confirmed created =>
    have hopening := opening_of_judge (s := s) rfl judged confirmed created
    exact ⟨_, rfl, h.pend ⟨_, _, _, [], rfl, hopening, .nil _⟩⟩
  | lost command hst fits encoded received =>
    obtain rfl := hst
    obtain ⟨finished, current, rfl, hfinished, x, y, first, carried, rfl, hopen, hcarried⟩ := h
    rw [List.append_assoc]
    exact ⟨_, rfl, .finish hfinished
      (.cut hopen hcarried command (sends_of_le fits encoded) ⟨_, received⟩) rfl⟩
  | carried command hst fits encoded received =>
    obtain rfl := hst
    obtain ⟨finished, current, rfl, hfinished, x, y, first, carried, rfl, hopen, hcarried⟩ := h
    rw [List.append_assoc]
    exact ⟨_, rfl, finished, _, rfl, hfinished, x, y, first, _, rfl, hopen,
      .snoc hcarried command (sends_of_le fits encoded) received⟩

theorem Logged.run {steps : List Step} (hs : ((s.withKeys keys).enter stage).Sound)
    (h : s.Logged stage exchanges) (hrun : Run ((s.withKeys keys).enter stage) steps last) :
    ∃ keys' stage', last = (s.withKeys keys').enter stage' ∧
      s.Logged stage' (exchanges ++ wire steps) := by
  generalize hstart : (s.withKeys keys).enter stage = start at hs hrun
  induction hrun generalizing keys stage exchanges with
  | done => exact ⟨keys, stage, hstart.symm, by simpa using h⟩
  | step first tail ih =>
    subst hstart
    obtain ⟨ht, hnext⟩ := hs.step first
    obtain ⟨stage', rfl, hlogged⟩ := h.step ht
    obtain ⟨keys'', stage'', rfl, hlogged⟩ := ih hlogged rfl hnext
    exact ⟨keys'', stage'', rfl, by simpa using hlogged⟩

/-! ### Where a channel comes from -/

theorem keeps_or_opens {ch : Channel}
    (ht : ((s.withKeys keys).enter stage).Transition operation events result next)
    (hn : next.stage = .opened ch) :
    (∃ before, stage = .opened before ∧ Step.Keeps ⟨keys, operation, events, result⟩ ∧
      before.Carried (Step.exchanges ⟨keys, operation, events, result⟩) ch) ∨
    s.Opens ⟨keys, operation, events, result⟩ ch := by
  cases ht with
  | refused refuses =>
    refine .inl ⟨ch, hn, ⟨?_, .inl rfl⟩, .nil ch⟩
    rintro rfl
    exact not_refusal_close refuses
  | encrypted => exact .inl ⟨ch, hn, ⟨nofun, .inl rfl⟩, .nil ch⟩
  | opened judged confirmed created =>
    cases hn
    exact .inr ⟨rfl, _, _, rfl, opening_of_judge (s := s) rfl judged confirmed created⟩
  | @carried _ c before _ _ _ _ command hst fits encoded received =>
    cases hn
    refine .inl ⟨before, hst, ⟨?_, .inr ⟨⟨c, command⟩, _, rfl⟩⟩,
      .single command (sends_of_le fits encoded) received⟩
    rintro rfl
    cases command
  | _ => cases hn

/-- A channel that is open after a run was open before it and was kept, or the run opened it. -/
theorem exists_opening {ch : Channel} {steps : List Step}
    (hs : ((s.withKeys keys).enter stage).Sound)
    (hrun : Run ((s.withKeys keys).enter stage) steps last) (hl : last.stage = .opened ch) :
    (∃ before, stage = .opened before ∧ (∀ step ∈ steps, step.Keeps) ∧
      before.Carried (wire steps) ch) ∨
    ∃ older opening between first, steps = older ++ opening :: between ∧
      s.Opens opening first ∧ (∀ step ∈ between, step.Keeps) ∧
      first.Carried (wire between) ch := by
  generalize hstart : (s.withKeys keys).enter stage = start at hs hrun
  induction hrun generalizing keys stage with
  | done =>
    subst hstart
    exact .inl ⟨ch, hl, fun _ hmem => absurd hmem List.not_mem_nil, .nil ch⟩
  | @step _ _ _ _ operation events result rest first tail ih =>
    subst hstart
    obtain ⟨ht, hnext⟩ := hs.step first
    obtain ⟨stage', rfl⟩ := ht.exists_enter
    rcases ih hl rfl hnext with
      ⟨mid, rfl, hkeeps, hcarried⟩ | ⟨older, opening, between, first, rfl, h⟩
    · rcases keeps_or_opens (s := s) ht rfl with ⟨before, hst, hkeep, hcarry⟩ | hopens
      · refine .inl ⟨before, hst, fun step hmem => ?_, hcarry.append hcarried⟩
        rcases List.mem_cons.mp hmem with rfl | hmem
        · exact hkeep
        · exact hkeeps step hmem
      · exact .inr ⟨[], _, rest, mid, rfl, hopens, hkeeps, hcarried⟩
    · exact .inr ⟨_ :: older, opening, between, first, rfl, h⟩

/-- A step that hands a command over to a channel. -/
theorem Transition.sends {c : Command} {x : Exchange}
    (ht : s.Transition operation events result next) (hc : operation.command? = some c)
    (hx : x ∈ Step.exchanges ⟨s.keys, operation, events, result⟩) :
    ∃ ch sent, s.stage = .opened ch ∧ ch.Sends c x.apdu sent := by
  cases ht with
  | refused => exact absurd hx List.not_mem_nil
  | lost command hst fits encoded _ | carried command hst fits encoded _ =>
    obtain rfl := Option.some.inj (hc.symm.trans command)
    obtain rfl := List.mem_singleton.mp hx
    exact ⟨_, _, hst, sends_of_le fits encoded⟩
  | _ => cases hc

end Session

namespace Stepwise

open Session

/-- Whatever the card and the provider of the keys answer, a new session hands over one attempt after
another.  Each command sent for `transmit` or `transmitRaw` is the next one of a channel that an
earlier step opened, and no step between the two has closed that channel, made it fail or started a
handshake. -/
theorem wire_attempts {keys : KeyProvider} {card : CardProfile} {config : Config} {new : Session}
    {steps : List Step} {f : Fields} (hnew : Session.create keys card config = .ok new)
    (hrun : Fields.Run new.fields steps f) :
    (∃ attempts, wire steps = List.flatten attempts ∧
      ∀ attempt ∈ attempts, new.Attempt attempt) ∧
    ∀ before step after c x, steps = before ++ step :: after →
      step.operation.command? = some c → x ∈ step.exchanges →
      ∃ older opening between first ch sent, before = older ++ opening :: between ∧
        new.Opens opening first ∧ (∀ mid ∈ between, mid.Keeps) ∧
        first.Carried (wire between) ch ∧ ch.Sends c x.apdu sent := by
  have hs := sound_of_create hnew
  obtain ⟨last, hsteps, rfl⟩ := (run_fields_iff hs).mp hrun
  have henter : new = (new.withKeys keys).enter .new := by
    obtain ⟨-, -, rfl⟩ := create_eq_ok_iff.mp hnew
    rfl
  rw [henter] at hs hsteps
  constructor
  · have hlogged : new.Logged .new [] :=
      ⟨[], [], rfl, fun _ hmem => absurd hmem List.not_mem_nil, rfl⟩
    obtain ⟨_, stage, -, hlogged⟩ := hlogged.run hs hsteps
    exact hlogged.attempts
  · rintro before step after c x rfl hc hx
    obtain ⟨mid, hbefore, hstep⟩ := hsteps.of_append
    cases hstep with
    | step first tail =>
      obtain ⟨ch, sent, hst, hsends⟩ := ((hs.run hbefore).step first).1.sends hc hx
      rcases exists_opening hs hbefore hst with
        ⟨_, hnone, -⟩ | ⟨older, opening, between, first, rfl, hopens, hkeeps, hcarried⟩
      · cases hnone
      · exact ⟨older, opening, between, first, ch, sent, rfl, hopens, hkeeps, hcarried, hsends⟩

/-- A channel is opened, and the command that is sent next is the first one of that channel. -/
theorem wire_attempts_unmodified :
    Session.create KeySet.default ⟨none, some ⟨0x17⟩⟩ Card.unmodified.config = .ok Card.unmodified ∧
    ∃ opening sending f, Fields.Run Card.unmodified.fields [opening, sending] f ∧
      [opening, sending].map Step.result = [.ok .opened, .ok (.response (.success []))] ∧
      (∃ attempts, wire [opening, sending] = List.flatten attempts ∧
        ∀ attempt ∈ attempts, Card.unmodified.Attempt attempt) ∧
      ∃ x ch sent, sending.exchanges = [x] ∧ Card.unmodified.Opens opening ch ∧
        ch.Sends Card.plain x.apdu sent := by
  have hnew := Card.create_unmodified
  obtain ⟨events, bytes, reply, last, hrun⟩ := Card.exists_run_carried
  have hfields := (run_fields_iff (sound_of_create hnew)).mpr ⟨_, hrun, rfl⟩
  obtain ⟨hattempts, hsent⟩ := wire_attempts hnew hfields
  obtain ⟨older, opening, between, first, ch, sent, hbefore, hopens, -, hcarried, hsends⟩ :=
    hsent [_] _ [] Card.plain _ rfl rfl List.mem_cons_self
  -- There is one step before, and so it is the one that opened the channel.
  obtain ⟨rfl, hrest⟩ := List.singleton_eq_append_iff.mp hbefore |>.resolve_right (by simp)
  obtain ⟨rfl, rfl⟩ := List.cons.inj hrest.symm
  obtain rfl := hcarried.eq_of_nil
  exact ⟨hnew, _, _, _, hfields, rfl, hattempts, _, first, sent, rfl, hopens, hsends⟩

end Stepwise

end CardChannel
