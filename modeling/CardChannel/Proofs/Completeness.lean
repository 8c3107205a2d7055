import CardChannel.Proofs.Card

/-! Whole runs against a card that keeps to the protocol.  A session opens a channel and then takes
one request after another; what it answers is what the application of the card answers to the plain
commands, for `serveAll` knows nothing of the channel.  A request that is malformed or too long is
turned down and disturbs nothing. -/

namespace CardChannel

/-- A request to transmit a command. -/
inductive Request where
  | command (c : Command)
  | raw (bytes : List UInt8)

namespace Request

def operation : Request → Operation
  | command c => .transmit c
  | raw bytes => .transmitRaw bytes

/-- The command to be transmitted, unless the bytes are not one. -/
def parsed : Request → Except Error Command
  | command c => .ok c
  | raw bytes => (Command.ofBytes bytes).mapError .apdu

theorem command?_operation {q : Request} {c : Command} (h : q.parsed = .ok c) :
    q.operation.command? = some c := by
  match q with
  | command _ =>
    cases h
    rfl
  | raw bytes =>
    rw [parsed] at h
    cases hc : Command.ofBytes bytes with
    | error cause =>
      rw [hc] at h
      cases h
    | ok parsed =>
      rw [hc] at h
      cases h
      simp only [operation, Operation.command?, hc, Except.toOption]

theorem refuses_of_error {q : Request} {error : Error} (h : q.parsed = .error error)
    (s : Session) : s.Refuses q.operation error := by
  match q with
  | command _ => cases h
  | raw bytes =>
    rw [parsed] at h
    cases hc : Command.ofBytes bytes with
    | error cause =>
      rw [hc] at h
      cases h
      exact .malformed hc
    | ok parsed =>
      rw [hc] at h
      cases h

end Request

namespace Card

variable {σ : Type} (card : Card σ) (level : SecurityLevel) (limit : Nat)

/-- What a caller should see of a request, and what becomes of the application. -/
def serve (q : Request) (world : σ) : Except Error Answer × σ :=
  match q.parsed with
  | .error error => (.error error, world)
  | .ok c =>
    if limit < c.payload.length then (.error (.dataTooLong c.payload.length limit), world)
    else
      let (response, world) := card.application (Channel.delivered level c) world
      (.ok (q.operation.present response), world)

def serveAll : List Request → σ → List (Except Error Answer) × σ
  | [], world => ([], world)
  | q :: rest, world =>
    let (answer, world) := card.serve level limit q world
    let (answers, world) := serveAll rest world
    (answer :: answers, world)

variable {level limit} {s : Session} {ch mirror : Channel}

open Dialogue in
/-- One request over an open channel. -/
theorem serve_step (hst : s.stage = .opened ch) (hf : ch.Fits) (hm : ch.Mirrors mirror)
    (q : Request) (hr : ∀ c, q.parsed = .ok c → c.payload.length ≤ ch.maxData →
      Channel.Readable ch.options ch.level c)
    (hd : ∀ c, q.parsed = .ok c → ch.level.cMac = false → c.data ≠ some []) (world : σ) :
    ∃ events next after,
      s.Transition q.operation events (card.serve ch.level ch.maxData q world).1
        (s.enter (.opened next)) ∧
      Answers card.reader ⟨.secured mirror, world⟩ events
        ⟨.secured after, (card.serve ch.level ch.maxData q world).2⟩ ∧
      next.Mirrors after ∧ ch.Continues next := by
  have henter : s.enter (.opened ch) = s := congrArg s.enter hst.symm
  cases hq : q.parsed with
  | error error =>
    refine ⟨[], ch, mirror, ?_, ?_, hm, .refl ch⟩
    · simp only [serve, hq, henter]
      exact .refused (q.refuses_of_error hq s)
    · simp only [serve, hq]
      exact .nil _
  | ok c =>
    have hop := Request.command?_operation hq
    by_cases hlt : ch.maxData < c.payload.length
    · refine ⟨[], ch, mirror, ?_, ?_, hm, .refl ch⟩
      · simp only [serve, hq, if_pos hlt, henter]
        exact .refused (.tooLong hop (Session.channel?_eq_some_iff.mpr hst) hlt)
      · simp only [serve, hq, if_pos hlt]
        exact .nil _
    · have hle := Nat.le_of_not_lt hlt
      obtain ⟨bytes, hb⟩ := hf.exists_toBytes hle
      obtain ⟨sent, haccept, hsent⟩ := hm.accept_protect hle (hr c hq hle) (hd c hq) hb
      rcases happ : card.application (Channel.delivered ch.level c) world with ⟨response, world'⟩
      have hlast : (ch.advance c).level.rMac = true → (ch.advance c).lastCommand ≠ none := by
        intro hrmac
        rw [Channel.level_advance] at hrmac
        rw [Channel.lastCommand_advance, if_pos hrmac]
        simp
      obtain ⟨next, hreceive, hnext⟩ := hsent.receive_answer hlast response
      refine ⟨[.sent bytes (.ok (sent.answer response).1.toBytes)], next, _, ?_, ?_, hnext, ?_⟩
      · simp only [serve, hq, if_neg hlt, happ]
        exact .carried hop hst hle hb hreceive
      · simp only [serve, hq, if_neg hlt, happ]
        refine .sent ?_ (.nil _)
        simp only [reader, exchange, haccept, happ]
      · exact Channel.continues_of_received hreceive

/-- Requests over an open channel, one after the other. -/
theorem serve_run (hs : s.Sound) (hst : s.stage = .opened ch) (hm : ch.Mirrors mirror)
    (requests : List Request) (hr : ∀ q ∈ requests, ∀ c, q.parsed = .ok c →
      c.payload.length ≤ ch.maxData → Channel.Readable ch.options ch.level c)
    (hd : ∀ q ∈ requests, ∀ c, q.parsed = .ok c → ch.level.cMac = false → c.data ≠ some [])
    (world : σ) :
    ∃ steps next after,
      s.play card.reader (requests.map Request.operation) ⟨.secured mirror, world⟩ =
        (steps, s.enter (.opened next),
          ⟨.secured after, (card.serveAll ch.level ch.maxData requests world).2⟩) ∧
      steps.map Step.result = (card.serveAll ch.level ch.maxData requests world).1 ∧
      next.Mirrors after ∧ ch.Continues next := by
  induction requests generalizing s ch mirror world with
  | nil =>
    have henter : s.enter (.opened ch) = s := congrArg s.enter hst.symm
    exact ⟨[], ch, mirror, by rw [henter]; rfl, rfl, hm, .refl ch⟩
  | cons q rest ih =>
    obtain ⟨events, next, after, ht, ha, hm, hcont⟩ :=
      card.serve_step hst (hs.fits hst) hm q (hr q List.mem_cons_self) (hd q List.mem_cons_self)
        world
    obtain ⟨steps, last, final, hplay, hresults, hlast, hcont'⟩ := ih (ht.sound hs) rfl hm
      (fun q hmem => by
        rw [hcont.options, hcont.level, hcont.maxData]
        exact hr q (List.mem_cons_of_mem _ hmem))
      (fun q hmem => by
        rw [hcont.level]
        exact hd q (List.mem_cons_of_mem _ hmem))
      (card.serve ch.level ch.maxData q world).2
    rw [hcont.level, hcont.maxData] at hplay hresults
    refine ⟨⟨s.keys, q.operation, events, (card.serve ch.level ch.maxData q world).1⟩ :: steps, last,
      final, ?_, ?_, hlast, hcont.trans hcont'⟩
    · rw [List.map_cons, Session.play_cons_of_trace (hs.trace_of_transition ht) ha, hplay]
      rfl
    · rw [List.map_cons, hresults]
      rfl

/-- A session opens a channel with any card that serves it, and then answers every request as the
application of the card does.  Both ends then hold the same values, and of all further commands the
card accepts those that are readable.  Where there are no MACs for commands, this is about commands
whose data field is absent or has bytes. -/
theorem play_serves (hs : s.Reachable) (hc : card.Serves s) (hl : level.validate = .ok ())
    {state : State σ} (hready : Ready state) (requests : List Request)
    (hr : ∀ q ∈ requests, ∀ c, q.parsed = .ok c →
      c.payload.length + level.overhead ≤ s.config.maxData → Channel.Readable s.options level c)
    (hd : ∀ q ∈ requests, ∀ c, q.parsed = .ok c → level.cMac = false → c.data ≠ some []) :
    ∃ steps last ch mirror,
      s.play card.reader (.openChannel level :: requests.map Request.operation) state =
        (steps, last, ⟨.secured mirror, (card.serveAll level (s.config.maxData - level.overhead)
          requests (card.challenge state.world).2).2⟩) ∧
      steps.map Step.result = .ok .opened :: (card.serveAll level
        (s.config.maxData - level.overhead) requests (card.challenge state.world).2).1 ∧
      last.stage = .opened ch ∧ ch.Mirrors mirror ∧
      ∀ c bytes, c.payload.length ≤ ch.maxData → (level.cMac = false → c.data ≠ some []) →
        (ch.protect c).toBytes = .ok bytes →
        ((mirror.accept bytes).isSome ↔ Channel.Readable s.options level c) := by
  have hsound := hs.sound
  obtain ⟨events, ch, mirror, ht, ha, hm, rfl, hoptions, hmax⟩ := hc.opens hsound hl hready
  have hroom : s.config.maxData - ch.level.overhead = ch.maxData := by omega
  obtain ⟨steps, next, after, hplay, hresults, hmirrors, hcont⟩ :=
    card.serve_run (ht.sound hsound) rfl hm requests
      (fun q hmem c hq hle => by
        rw [hoptions]
        exact hr q hmem c hq (by omega))
      hd (card.challenge state.world).2
  rw [hroom]
  refine ⟨⟨s.keys, .openChannel ch.level, events, .ok .opened⟩ :: steps, s.enter (.opened next), next,
    after, ?_, ?_, rfl, hmirrors, ?_⟩
  · rw [Session.play_cons_of_trace (hsound.trace_of_transition ht) ha, hplay]
    rfl
  · rw [List.map_cons, hresults]
  · intro c bytes hle hd hb
    rw [← hcont.level] at hd
    rw [← hoptions, ← hcont.options, ← hcont.level]
    constructor
    · intro hsome
      refine Classical.byContradiction fun hnot => ?_
      rw [hmirrors.accept_protect_of_not_readable hle hnot hb] at hsome
      cases hsome
    · intro hread
      obtain ⟨_, haccept, -⟩ := hmirrors.accept_protect hle hread hd hb
      rw [haccept]
      rfl

/-! ### Commands that are not readable -/

theorem greet_of_not_readable {c : Command} {bytes : List UInt8}
    (hr : ¬ Channel.Readable ch.options ch.level c) (hb : (ch.protect c).toBytes = .ok bytes) :
    card.greet bytes = none := by
  obtain ⟨hc, -⟩ := Classical.not_imp.mp hr
  have hmark := Channel.and_markSecure c.cla
  rw [greet, Command.ofBytes_of_toBytes hb (Channel.protect_data_ne hc)]
  refine if_neg fun hgreet => ?_
  have hcla : Channel.markSecure c.cla = 0x80 := by
    have := hgreet.1
    rwa [Channel.protect_of_true hc] at this
  rw [hcla] at hmark
  cases hmark

open Dialogue in
/-- The card refuses a command that is not readable, and without response MACs the host takes the
refusal for an answer. -/
theorem refuse_step (hst : s.stage = .opened ch) (hf : ch.Fits) (hm : ch.Mirrors mirror)
    {c : Command} (hle : c.payload.length ≤ ch.maxData)
    (hr : ¬ Channel.Readable ch.options ch.level c) (hrmac : ch.level.rMac = false) (world : σ) :
    ∃ events next,
      s.Transition (.transmit c) events (.ok (.response refusal)) (s.enter (.opened next)) ∧
      Answers card.reader ⟨.secured mirror, world⟩ events ⟨.idle, world⟩ := by
  obtain ⟨bytes, hb⟩ := hf.exists_toBytes hle
  have hexchange : card.exchange bytes ⟨.secured mirror, world⟩ =
      (.ok refusal.toBytes, ⟨.idle, world⟩) := by
    simp only [exchange, hm.accept_protect_of_not_readable hle hr hb, startOver,
      card.greet_of_not_readable hr hb]
  have hreceive : (ch.advance c).receive (.ok refusal.toBytes) = (.ok refusal, ch.advance c) := by
    have hlevel : (ch.advance c).level.rMac = false := by rw [Channel.level_advance, hrmac]
    rw [Channel.receive_toBytes, Channel.unwrap_of_unchecked hlevel]
  exact ⟨_, _, .carried rfl hst hle hb hreceive, .sent hexchange (.nil _)⟩

theorem play_refuses (hs : s.Reachable) (hc : card.Serves s) (hl : level.validate = .ok ())
    (hrmac : level.rMac = false) {c : Command}
    (hle : c.payload.length + level.overhead ≤ s.config.maxData)
    (hr : ¬ Channel.Readable s.options level c) {state : State σ} (hready : Ready state) :
    (s.play card.reader [.openChannel level, .transmit c] state).1.map Step.result =
      [.ok .opened, .ok (.response refusal)] := by
  have hsound := hs.sound
  obtain ⟨events, ch, mirror, ht, ha, hm, rfl, hoptions, hmax⟩ := hc.opens hsound hl hready
  have hsound' := ht.sound hsound
  rw [← hoptions] at hr
  have hst : (s.enter (.opened ch)).stage = .opened ch := rfl
  obtain ⟨events', next, ht', ha'⟩ := card.refuse_step hst (hsound'.fits hst) hm
    (by omega : c.payload.length ≤ ch.maxData) hr hrmac (card.challenge state.world).2
  rw [Session.play_cons_of_trace (hsound.trace_of_transition ht) ha,
    Session.play_cons_of_trace (hsound'.trace_of_transition ht') ha']
  rfl

/-! ### One session -/

/-- A command that every channel with room for one byte carries. -/
def plain : Command := ⟨0x80, 0xF2, 0x80, 0x00, some [0x4F], some 0⟩

/-- Two commands that are served, between them bytes that are no command and data too long. -/
def sampleRequests : List Request :=
  [.command plain, .raw [0x80, 0xCA],
    .command ⟨0x80, 0xF2, 0x80, 0x00, some [0x4F, 0x00], some 0⟩,
    .raw [0x80, 0xCA, 0x00, 0x66, 0x00]]

theorem play_serves_unmodified :
    unmodified.Reachable ∧ (obliging unmodified).Serves unmodified ∧
    ∃ steps last final,
      unmodified.play (obliging unmodified).reader
        (.openChannel ⟨true, true, true, false⟩ :: sampleRequests.map Request.operation)
        ⟨.idle, ()⟩ = (steps, last, final) ∧
      steps.map Step.result =
        [.ok .opened, .ok (.response (.success [])), .error (.apdu (.invalidCommandLength 2)),
          .error (.dataTooLong 2 1), .ok (.bytes [0x90, 0x00])] := by
  have hread : ∀ q ∈ sampleRequests, ∀ c, q.parsed = .ok c →
      c.payload.length + SecurityLevel.overhead ⟨true, true, true, false⟩ ≤
        unmodified.config.maxData →
      Channel.Readable unmodified.options ⟨true, true, true, false⟩ c := by
    intro q hmem c hq _ _ _
    simp only [sampleRequests, List.mem_cons, List.not_mem_nil, or_false] at hmem
    rcases hmem with rfl | rfl | rfl | rfl <;> cases hq <;> rfl
  obtain ⟨steps, last, ch, mirror, hplay, hresults, -⟩ :=
    (obliging unmodified).play_serves reachable_unmodified serves_unmodified rfl (ready_idle ())
      sampleRequests hread (fun _ _ _ _ hmac => nomatch hmac)
  exact ⟨reachable_unmodified, serves_unmodified, steps, last, _, hplay, hresults⟩

/-- A channel is opened, and takes one command to the card and the response back. -/
theorem exists_run_carried :
    ∃ events bytes reply ch, Run unmodified
      [⟨unmodified.keys, .openChannel .cMacOnly, events, .ok .opened⟩,
        ⟨unmodified.keys, .transmit plain, [.sent bytes reply], .ok (.response (.success []))⟩]
      (unmodified.enter (.opened ch)) := by
  have hs := reachable_unmodified.sound
  have hlevel : SecurityLevel.cMacOnly.validate = .ok () := rfl
  obtain ⟨events, ch, mirror, hopen, -, hmirrors, -, -, hmax⟩ :=
    serves_unmodified.opens hs hlevel (ready_idle ())
  have hopened := hopen.sound hs
  have hst : (unmodified.enter (.opened ch)).stage = .opened ch := rfl
  obtain ⟨events', next, -, hcarry, -⟩ :=
    (obliging unmodified).serve_step hst (hopened.fits hst) hmirrors (.command plain)
      (fun c hc _ => Except.ok.inj hc ▸ fun _ _ => rfl) (fun c hc _ => Except.ok.inj hc ▸ nofun) ()
  have hanswer : ((obliging unmodified).serve ch.level ch.maxData (.command plain) ()).1 =
      .ok (.response (.success [])) := by
    have hroom : ¬ ch.maxData < 1 := by
      have : ch.maxData + 8 = 17 := hmax
      omega
    exact congrArg Prod.fst (if_neg hroom)
  rw [hanswer] at hcarry
  obtain ⟨bytes, reply, rfl⟩ := hcarry.exists_sent rfl
  exact ⟨events, bytes, reply, next, .step (hs.trace_of_transition hopen)
    (.step (hopened.trace_of_transition hcarry) (.done _))⟩

/-- A command that carries the mark before it is sent. -/
def marked : Command := ⟨0x84, 0xF2, 0x80, 0x00, some [0x4F, 0x00], none⟩

/-- The application would serve a command that carries the mark already.  The card refuses it. -/
theorem play_refuses_unmodified :
    (unmodified.play (obliging unmodified).reader [.openChannel .cMacOnly, .transmit marked]
      ⟨.idle, ()⟩).1.map Step.result = [.ok .opened, .ok (.response refusal)] ∧
    ((obliging unmodified).serveAll .cMacOnly 9 [.command marked] ()).1 =
      [.ok (.response (.success []))] := by
  have hr : ¬ Channel.Readable unmodified.options .cMacOnly marked :=
    fun hread => absurd (hread rfl rfl) (by decide)
  exact ⟨(obliging unmodified).play_refuses reachable_unmodified serves_unmodified rfl rfl
    (by decide) hr (ready_idle ()), rfl⟩

end Card

end CardChannel
