import CardChannel.Proofs.Completeness
import CardChannel.Proofs.Session.RecordedReply
import CardChannel.Proofs.Stepwise.Session

/-! The representation invariant of a session.  The stage says that a channel is open if and only if
there is one, and what a channel holds goes back to what the session has handed over: its keys were
derived from the last reply to INITIALIZE UPDATE, and under command MACs its chain stands at the MAC
that ends the last command (`Established`).  Each operation keeps this up, and so it holds of every
session that can be reached: `fields_of_run`. -/

namespace CardChannel

/-- INITIALIZE UPDATE was handed over, and not a command for the channel that looks the same. -/
def Exchange.Starts (x : Exchange) : Prop :=
  x.operation.usesChannel = false ∧
    ∃ keyVersion hostChallenge, x.apdu = InitializeUpdate.bytes keyVersion hostChallenge

/-- The last INITIALIZE UPDATE of a record. -/
structure LastStart (log : List Exchange) (x : Exchange) : Prop where
  starts : x.Starts
  last : ∃ front back, log = front ++ x :: back ∧ ∀ y ∈ back, ¬ y.Starts

/-- The last command of a record ends in this MAC. -/
def EndsIn (log : List Exchange) (mac : Block) : Prop :=
  ∃ x w, log.getLast? = some x ∧ Command.ofBytes x.apdu = .ok w ∧ w.EndsIn mac

theorem LastStart.append {log more : List Exchange} {x : Exchange} (h : LastStart log x)
    (hmore : ∀ y ∈ more, ¬ y.Starts) : LastStart (log ++ more) x := by
  obtain ⟨hstarts, front, back, rfl, hback⟩ := h
  refine ⟨hstarts, front, back ++ more, by simp, fun y hmem => ?_⟩
  exact (List.mem_append.mp hmem).elim (hback y) (hmore y)

theorem EndsIn.of_toBytes {log : List Exchange} {x : Exchange} {w : Command} {mac : Block}
    (hb : w.toBytes = .ok x.apdu) (hw : w.EndsIn mac) : EndsIn (log ++ [x]) mac :=
  ⟨x, w, List.getLast?_concat, Command.ofBytes_of_toBytes hb hw.data_ne, hw⟩

theorem Operation.usesChannel_of_command {operation : Operation} {c : Command}
    (h : operation.command? = some c) : operation.usesChannel = true := by
  cases operation <;> first | rfl | cases h

namespace Session

open Dialogue Stepwise

variable {s next last new : Session} {log : List Exchange} {operation : Operation}
  {events : List Event} {result : Except Error Answer} {steps : List Step}

/-- What an open channel holds, given what its session has handed over. -/
structure Established (s : Session) (log : List Exchange) (ch : Channel) : Prop where
  level : ch.level.validate = .ok ()
  options : ch.options = s.options
  icv : ch.icv.isSome
  maxData : ch.maxData = s.config.maxData - (if ch.level.cMac then 8 else 0) -
    (if ch.level.cDecryption then 8 else 0)
  room : 1 ≤ ch.maxData
  derived : ∃ x reply, LastStart log x ∧ x.reply = .ok (InitializeUpdate.Reply.bytes reply) ∧
    SessionKeys.derive x.keys (s.config.baseKeys s.options) reply.keyVersion
      reply.sequenceCounter = .ok ch.keys
  signed : ch.level.cMac = true → ∃ mac, ch.icv = some mac ∧ EndsIn log mac

theorem Sound.established_of_create (hs : s.Sound) {h : Handshake} {level : SecurityLevel}
    {ch : Channel} {hostChallenge : Block} {first second : Reply}
    (judged : s.judge s.config.keyVersion hostChallenge first = .ok h)
    (created : Channel.create h.keys s.options level (some (h.finalMac s.options level))
      s.config.maxData = .ok ch) :
    s.Established (log ++
      [⟨s.keys, .openChannel level, InitializeUpdate.bytes s.config.keyVersion hostChallenge, first⟩,
        ⟨s.keys, .openChannel level, h.finalBytes s.options level, second⟩]) ch := by
  obtain ⟨hfirst, hsuits, -⟩ := Handshake.suits_of_judge judged
  obtain ⟨hlevel, room, hroom, rfl⟩ := Channel.create_eq_ok_iff.mp created
  have hover := (Channel.dataRoom_eq_ok_iff.mp hroom).2
  have hmax := hs.maxData
  have hle := level.overhead_le
  have hsplit := SecurityLevel.overhead_of_validate hlevel
  refine ⟨hlevel, rfl, rfl, ?_, ?_, ?_, fun _ => ⟨_, rfl, ?_⟩⟩
  · show room = s.config.maxData - (if level.cMac then 8 else 0) -
      (if level.cDecryption then 8 else 0)
    omega
  · show 1 ≤ room
    omega
  · refine ⟨_, h.reply, ⟨⟨rfl, _, _, rfl⟩, log, [_], rfl, ?_⟩, hfirst, hsuits.derived⟩
    rintro y hmem ⟨-, keyVersion, hostChallenge, happ⟩
    rw [List.mem_singleton.mp hmem] at happ
    cases happ
  · rw [List.append_cons]
    exact .of_toBytes (w := h.finalWrapped s.options level) rfl ⟨_, rfl⟩

/-- A command over the channel moves the chain to the MAC that it ends in, and leaves the rest. -/
theorem Established.carried {keys : KeyProvider} {c : Command} {ch after : Channel}
    {bytes : List UInt8} {reply : Reply} {r : Response} (h : s.Established log ch) (command : operation.command? = some c)
    (encoded : (ch.protect c).toBytes = .ok bytes)
    (received : (ch.advance c).receive reply = (.ok r, after)) :
    s.Established (log ++ [⟨keys, operation, bytes, reply⟩]) after := by
  have hsame := Channel.continues_of_received received
  have hicv := Channel.icv_of_received received
  obtain ⟨x, start, hlast, hstart, hkeys⟩ := h.derived
  have hquiet : ∀ y ∈ [(⟨keys, operation, bytes, reply⟩ : Exchange)], ¬ y.Starts := by
    rintro y hmem ⟨hchannel, -⟩
    rw [List.mem_singleton.mp hmem, Operation.usesChannel_of_command command] at hchannel
    cases hchannel
  refine ⟨by rw [hsame.level]; exact h.level, hsame.options.trans h.options, ?_, ?_, ?_,
    ⟨x, start, hlast.append hquiet, hstart, by rw [hsame.keys]; exact hkeys⟩, fun hc => ?_⟩
  · rw [hicv]
    split
    · rfl
    · exact h.icv
  · rw [hsame.maxData, hsame.level]
    exact h.maxData
  · rw [hsame.maxData]
    exact h.room
  · rw [hsame.level] at hc
    rw [if_pos hc] at hicv
    exact ⟨_, hicv, .of_toBytes encoded (ch.endsIn_protect hc c)⟩

theorem Established.enter {ch : Channel} (h : s.Established log ch) (stage : Stage) :
    (s.enter stage).Established log ch :=
  ⟨h.level, h.options, h.icv, h.maxData, h.room, h.derived, h.signed⟩

/-- A channel stays what the provider of its handshake has made it. -/
theorem Established.withKeys {ch : Channel} (h : s.Established log ch) (keys : KeyProvider) :
    (s.withKeys keys).Established log ch :=
  ⟨h.level, h.options, h.icv, h.maxData, h.room, h.derived, h.signed⟩

/-- The channel, if there is one, is what the exchanges have made of it. -/
def Consistent (s : Session) (log : List Exchange) : Prop :=
  ∀ ch, s.stage = .opened ch → s.Established log ch

theorem Consistent.step (hs : s.Sound) (h : s.Consistent log)
    (ht : s.Transition operation events result next) :
    next.Consistent (log ++ Step.exchanges ⟨s.keys, operation, events, result⟩) := by
  intro ch hst
  cases ht with
  | refused | encrypted =>
    simpa only [Step.exchanges, List.filterMap_nil, List.append_nil] using h ch hst
  | opened judged confirmed created =>
    cases hst
    exact (hs.established_of_create judged created).enter _
  | carried command stage fits encoded received =>
    cases hst
    exact ((h _ stage).carried command encoded received).enter _
  | _ => cases hst

theorem Consistent.run (hs : s.Sound) (h : s.Consistent log) (hrun : Run s steps last) :
    last.Consistent (log ++ wire steps) := by
  induction hrun generalizing log with
  | done => rwa [wire_nil, List.append_nil]
  | @step _ _ _ keys _ _ _ _ first tail ih =>
    obtain ⟨ht, hnext⟩ := hs.step first
    rw [wire_cons, ← List.append_assoc]
    exact ih hnext (Consistent.step (hs.withKeys keys) (fun ch hst => (h ch hst).withKeys keys) ht)

theorem consistent_of_create {keys : KeyProvider} {card : CardProfile} {config : Config}
    (hcreate : create keys card config = .ok new) : new.Consistent [] := by
  obtain ⟨-, -, rfl⟩ := create_eq_ok_iff.mp hcreate
  exact nofun

theorem Reachable.exists_established {ch : Channel} (h : s.Reachable) (hst : s.stage = .opened ch) :
    ∃ log, s.Established log ch := by
  obtain ⟨keys, card, config, new, steps, hcreate, hrun⟩ := h
  have hconsistent := (consistent_of_create hcreate).run (sound_of_create hcreate) hrun
  exact ⟨_, hconsistent ch hst⟩

/-- Whatever is done with a session and whatever comes back, its stage and its channel agree, and
the channel is the one that the last handshake and the last command call for. -/
theorem fields_of_run {keys : KeyProvider} {card : CardProfile} {config : Config} {f : Fields}
    (hcreate : create keys card config = .ok new) (hrun : Fields.Run new.fields steps f) :
    ∃ last, Run new steps last ∧ f = last.fields ∧
      (f.phase = .opened ↔ f.channel.isSome) ∧ (f.channel.isSome ↔ f.level?.isSome) ∧
      ∀ ch, f.channel = some ch → last.Established (wire steps) ch := by
  have hs := sound_of_create hcreate
  obtain ⟨last, hlast, rfl⟩ := (run_fields_iff hs).mp hrun
  have hconsistent := (consistent_of_create hcreate).run hs hlast
  refine ⟨last, hlast, rfl, ?_, ?_, fun ch hch => ?_⟩
  · cases hst : last.stage <;> simp [fields, channel?, Stage.phase, Stage.channel?, hst]
  · rw [Fields.level?, Option.isSome_map]
  · exact hconsistent ch (channel?_eq_some_iff.mp hch)

/-- A channel is opened and carries one command. -/
theorem fields_of_run_unmodified :
    create KeySet.default ⟨none, some ⟨0x17⟩⟩ Card.unmodified.config = .ok Card.unmodified ∧
    ∃ steps f ch, Fields.Run Card.unmodified.fields steps f ∧
      steps.map Step.result = [.ok .opened, .ok (.response (.success []))] ∧
      f.channel = some ch ∧
      ∃ last : Session, f = last.fields ∧ last.Established (wire steps) ch := by
  have hnew := Card.create_unmodified
  obtain ⟨events, bytes, reply, ch, hrun⟩ := Card.exists_run_carried
  have hfields := (run_fields_iff (sound_of_create hnew)).mpr ⟨_, hrun, rfl⟩
  obtain ⟨last, -, hlast, -, -, hestablished⟩ := fields_of_run hnew hfields
  exact ⟨hnew, _, _, ch, hfields, rfl, rfl, last, hlast, hestablished ch rfl⟩

end Session

end CardChannel
