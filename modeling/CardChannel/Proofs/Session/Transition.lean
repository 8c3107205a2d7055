import CardChannel.Proofs.Handshake
import CardChannel.Proofs.Session.Operation

/-! What a session can do in one operation.  `Refusal` lists the reasons for which an operation is
turned down before anything is sent, and `Transition` lists all outcomes of all operations, with the
bytes that are handed over.  Every operation on a `Sound` session ends in one of them
(`transition_of_trace`), and every session that can be reached is sound (`Reachable.sound`). -/

namespace CardChannel

/-- The operation is turned down with this error, given whether a handshake waits for its second
half, and the channel if there is one. -/
inductive Refusal (challenged : Prop) (channel : Option Channel) : Operation → Error → Prop where
  | openLevel {level : SecurityLevel} {error : Error} (invalid : level.validate = .error error) :
      Refusal challenged channel (.openChannel level) error
  | finishStage {h : Handshake} {level : SecurityLevel} (stage : ¬ challenged) :
      Refusal challenged channel (.externalAuthenticate h level) Session.handshakeMissing
  | finishLevel {h : Handshake} {level : SecurityLevel} {error : Error}
      (stage : challenged) (invalid : level.validate = .error error) :
      Refusal challenged channel (.externalAuthenticate h level) error
  | malformed {bytes : List UInt8} {cause : ApduError}
      (invalid : Command.ofBytes bytes = .error cause) :
      Refusal challenged channel (.transmitRaw bytes) (.apdu cause)
  | transmitClosed {operation : Operation} {c : Command} (command : operation.command? = some c)
      (closed : channel = none) : Refusal challenged channel operation .noSecureChannel
  | tooLong {operation : Operation} {c : Command} {ch : Channel}
      (command : operation.command? = some c) (there : channel = some ch)
      (long : ch.maxData < c.payload.length) :
      Refusal challenged channel operation (.dataTooLong c.payload.length ch.maxData)
  | encryptClosed {data : List UInt8} (closed : channel = none) :
      Refusal challenged channel (.encryptSensitive data) .noSecureChannel
  | misaligned {data : List UInt8} {ch : Channel} (there : channel = some ch)
      (length : data.length % 8 ≠ 0) :
      Refusal challenged channel (.encryptSensitive data) (.ofFault .misaligned)

theorem not_refusal_close {challenged : Prop} {channel : Option Channel} {error : Error} :
    ¬ Refusal challenged channel .close error := by
  intro h
  cases h with
  | transmitClosed command | tooLong command => cases command

namespace Session

theorem create_eq_ok_iff {keys : KeyProvider} {card : CardProfile} {config : Config} {s : Session} :
    create keys card config = .ok s ↔ config.validate = .ok () ∧ checkVersion card = .ok () ∧
      s = ⟨keys, config.options.getD card.effectiveOptions, config, .new⟩ := by
  rw [create, check_bind_eq_ok_iff, check_bind_eq_ok_iff]
  simp only [pure, Except.pure, Except.ok.injEq, eq_comm (b := s)]

open Dialogue

variable {s next last : Session} {operation : Operation} {events : List Event}
  {result : Except Error Answer}

theorem channel?_eq_some_iff {ch : Channel} : s.channel? = some ch ↔ s.stage = .opened ch := by
  rw [channel?]
  cases s.stage <;> simp [Stage.channel?]

theorem channel?_ne_none {ch : Channel} (h : s.stage = .opened ch) : s.channel? ≠ none := by
  rw [channel?_eq_some_iff.mpr h]
  exact Option.some_ne_none ch

/-- The host's view of a reply to INITIALIZE UPDATE. -/
def judge (s : Session) (keyVersion : UInt8) (hostChallenge : Block) (reply : Reply) :
    Except Error Handshake :=
  Handshake.judge s.keys (s.config.baseKeys s.options) keyVersion hostChallenge reply

/-! ### Refusals -/

def Refuses (s : Session) : Operation → Error → Prop :=
  Refusal (s.stage = .challenged) s.channel?

/-- What an operation that transmits `c` does, up to how the response is handed over. -/
theorem perform_of_command {c : Command} (h : operation.command? = some c) :
    s.perform operation = answerWith operation.present <$> s.transmit c := by
  match operation with
  | .transmit _ =>
    cases h
    rfl
  | .transmitRaw bytes =>
    cases hc : Command.ofBytes bytes with
    | error cause => simp [Operation.command?, hc, Except.toOption] at h
    | ok parsed =>
      simp only [Operation.command?, hc, Except.toOption, Option.some.injEq] at h
      subst h
      rw [perform, transmitRaw, hc]
      simp only [map_eq_pure_bind, bind_assoc, pure_bind]
      congr 1
      funext outcome
      match outcome with
      | (.error error, next) => rfl
      | (.ok response, next) => rfl

theorem transmit_of_none {c : Command} (h : s.channel? = none) :
    s.transmit c = done (.error .noSecureChannel, s) := by
  rw [transmit, h]

theorem transmit_of_some {c : Command} {ch : Channel} (h : s.channel? = some ch) :
    s.transmit c = ch.transmit c >>= fun outcome =>
      done (outcome.1, s.afterTransmit outcome.2 outcome.1) := by
  rw [transmit, h]
  rfl

theorem transmit_of_lt {c : Command} {ch : Channel} (h : s.stage = .opened ch)
    (hlt : ch.maxData < c.payload.length) :
    s.transmit c = done (.error (.dataTooLong c.payload.length ch.maxData), s) := by
  have hs : s.enter (.opened ch) = s := congrArg s.enter h.symm
  rw [transmit_of_some (channel?_eq_some_iff.mpr h), Channel.transmit_of_lt hlt]
  simp only [Dialogue.bind_eq, Dialogue.bind, afterTransmit, hs]

theorem encryptSensitive_of_some {data bytes : List UInt8} {ch : Channel}
    (h : s.channel? = some ch) (he : ch.keys.dek.encryptBlocks data = .ok bytes) :
    s.encryptSensitive data = .ok bytes := by
  rw [encryptSensitive, h]
  show Except.mapError _ (ch.keys.dek.encryptBlocks data) = _
  rw [he]
  rfl

theorem perform_of_refuses {error : Error} (h : s.Refuses operation error) :
    s.perform operation = done (.error error, s) := by
  cases h with
  | openLevel invalid => rw [perform, openChannel, invalid]; rfl
  | finishStage stage => rw [perform, externalAuthenticate, if_neg stage]; rfl
  | finishLevel stage invalid => rw [perform, externalAuthenticate, if_pos stage, invalid]; rfl
  | malformed invalid => rw [perform, transmitRaw, invalid]; rfl
  | transmitClosed command closed =>
    rw [perform_of_command command, transmit_of_none closed]
    rfl
  | tooLong command there long =>
    rw [perform_of_command command, transmit_of_lt (channel?_eq_some_iff.mp there) long]
    rfl
  | encryptClosed closed => rw [perform, encryptSensitive, closed]; rfl
  | misaligned there length =>
    rw [perform, encryptSensitive, there]
    simp only [SessionKey.encryptBlocks, if_neg length]
    rfl

/-! ### Outcomes -/

/-- The configuration is valid, and so is the channel if there is one. -/
structure Sound (s : Session) : Prop where
  config : s.config.validate = .ok ()
  fits : ∀ {ch}, s.stage = .opened ch → ch.Fits

/-- What is drawn for a handshake with `hostChallenge`. -/
inductive Draws : Option Block → Block → List Event → Prop where
  | random (hostChallenge : Block) : Draws none hostChallenge [.drawn hostChallenge]
  | chosen (hostChallenge : Block) : Draws (some hostChallenge) hostChallenge []

/-- An operation, what is seen of it, and how it ends. -/
inductive Transition (s : Session) :
    Operation → List Event → Except Error Answer → Session → Prop where
  | refused {operation : Operation} {error : Error} (refuses : s.Refuses operation error) :
      Transition s operation [] (.error error) s
  | notChallenged {keyVersion : UInt8} {chosen : Option Block} {hostChallenge : Block}
      {drawn : List Event} {reply : Reply} {error : Error}
      (draws : Draws chosen hostChallenge drawn)
      (judged : s.judge keyVersion hostChallenge reply = .error error) :
      Transition s (.initializeUpdate keyVersion chosen)
        (drawn ++ [.sent (InitializeUpdate.bytes keyVersion hostChallenge) reply])
        (.error error) (s.enter .failed)
  | challenged {keyVersion : UInt8} {chosen : Option Block} {hostChallenge : Block}
      {drawn : List Event} {reply : Reply} {h : Handshake}
      (draws : Draws chosen hostChallenge drawn)
      (judged : s.judge keyVersion hostChallenge reply = .ok h) :
      Transition s (.initializeUpdate keyVersion chosen)
        (drawn ++ [.sent (InitializeUpdate.bytes keyVersion hostChallenge) reply])
        (.ok (.handshake h)) (s.enter .challenged)
  | notAuthenticated {h : Handshake} {level : SecurityLevel} {reply : Reply} {error : Error}
      (stage : s.stage = .challenged) (valid : level.validate = .ok ())
      (confirmed : Handshake.confirm reply = .error error) :
      Transition s (.externalAuthenticate h level) [.sent (h.finalBytes s.options level) reply]
        (.error error) (s.enter .failed)
  | authenticated {h : Handshake} {level : SecurityLevel} {reply : Reply}
      (stage : s.stage = .challenged) (valid : level.validate = .ok ())
      (confirmed : Handshake.confirm reply = .ok ()) :
      Transition s (.externalAuthenticate h level) [.sent (h.finalBytes s.options level) reply]
        (.ok (.mac (h.finalMac s.options level))) (s.enter .authenticated)
  | openNotChallenged {level : SecurityLevel} {hostChallenge : Block} {reply : Reply}
      {error : Error} (valid : level.validate = .ok ())
      (judged : s.judge s.config.keyVersion hostChallenge reply = .error error) :
      Transition s (.openChannel level)
        [.drawn hostChallenge,
          .sent (InitializeUpdate.bytes s.config.keyVersion hostChallenge) reply]
        (.error error) (s.enter .failed)
  | openNotAuthenticated {level : SecurityLevel} {hostChallenge : Block} {first second : Reply}
      {h : Handshake} {error : Error} (valid : level.validate = .ok ())
      (judged : s.judge s.config.keyVersion hostChallenge first = .ok h)
      (confirmed : Handshake.confirm second = .error error) :
      Transition s (.openChannel level)
        [.drawn hostChallenge,
          .sent (InitializeUpdate.bytes s.config.keyVersion hostChallenge) first,
          .sent (h.finalBytes s.options level) second]
        (.error error) (s.enter .failed)
  | opened {level : SecurityLevel} {hostChallenge : Block} {first second : Reply}
      {h : Handshake} {ch : Channel}
      (judged : s.judge s.config.keyVersion hostChallenge first = .ok h)
      (confirmed : Handshake.confirm second = .ok ())
      (created : Channel.create h.keys s.options level (some (h.finalMac s.options level))
        s.config.maxData = .ok ch) :
      Transition s (.openChannel level)
        [.drawn hostChallenge,
          .sent (InitializeUpdate.bytes s.config.keyVersion hostChallenge) first,
          .sent (h.finalBytes s.options level) second]
        (.ok .opened) (s.enter (.opened ch))
  | lost {operation : Operation} {c : Command} {ch : Channel} {bytes : List UInt8} {reply : Reply}
      {error : Error} (command : operation.command? = some c) (stage : s.stage = .opened ch)
      (fits : c.payload.length ≤ ch.maxData) (encoded : (ch.protect c).toBytes = .ok bytes)
      (received : ((ch.advance c).receive reply).1 = .error error) :
      Transition s operation [.sent bytes reply] (.error error) (s.enter .failed)
  | carried {operation : Operation} {c : Command} {ch after : Channel} {bytes : List UInt8}
      {reply : Reply} {r : Response} (command : operation.command? = some c)
      (stage : s.stage = .opened ch) (fits : c.payload.length ≤ ch.maxData)
      (encoded : (ch.protect c).toBytes = .ok bytes)
      (received : (ch.advance c).receive reply = (.ok r, after)) :
      Transition s operation [.sent bytes reply] (.ok (operation.present r))
        (s.enter (.opened after))
  | encrypted {data bytes : List UInt8} {ch : Channel} (stage : s.stage = .opened ch)
      (encrypts : ch.keys.dek.encryptBlocks data = .ok bytes) :
      Transition s (.encryptSensitive data) [] (.ok (.bytes bytes)) s
  | closed : Transition s .close [] (.ok .closed) (s.enter .new)

namespace Transition

/-- Only the stage of a session changes. -/
theorem exists_enter (h : s.Transition operation events result next) :
    ∃ stage, next = s.enter stage := by
  cases h with
  | refused | encrypted => exact ⟨s.stage, rfl⟩
  | _ => exact ⟨_, rfl⟩

theorem sound (h : s.Transition operation events result next) (hs : s.Sound) : next.Sound := by
  cases h with
  | refused | encrypted => exact hs
  | opened _ _ created =>
    exact ⟨hs.config, fun hst => Stage.opened.inj hst ▸ Channel.fits_of_create created⟩
  | carried _ stage _ _ received =>
    have hcont := Channel.continues_of_received received
    exact ⟨hs.config, fun hst => Stage.opened.inj hst ▸ hcont.fits (hs.fits stage)⟩
  | _ => exact ⟨hs.config, fun hst => nomatch hst⟩

/-- A command that was answered was sent, and nothing else was. -/
theorem exists_sent {c : Command} {answer : Answer}
    (h : s.Transition operation events (.ok answer) next) (command : operation.command? = some c) :
    ∃ bytes reply, events = [.sent bytes reply] := by
  generalize hresult : (.ok answer : Except Error Answer) = result at h
  cases h with
  | carried => exact ⟨_, _, rfl⟩
  | refused | lost => cases hresult
  | _ => cases command

end Transition

/-! ### Every operation ends in one of the outcomes -/

theorem initializeUpdateWith_eq (s : Session) (keyVersion : UInt8) (hostChallenge : Block) :
    s.initializeUpdateWith keyVersion hostChallenge =
      send (InitializeUpdate.bytes keyVersion hostChallenge) fun reply =>
        done (s.settle (fun _ => .challenged) (s.judge keyVersion hostChallenge reply)) := by
  rw [initializeUpdateWith, Handshake.start_eq]
  rfl

theorem Sound.maxData (hs : s.Sound) : 16 < s.config.maxData ∧ s.config.maxData ≤ maxShortData := by
  have h := hs.config
  unfold Config.validate at h
  split at h
  · assumption
  · cases h

theorem externalAuthenticate_eq (hs : s.Sound) (hst : s.stage = .challenged) (h : Handshake)
    {level : SecurityLevel} (hl : level.validate = .ok ()) :
    s.externalAuthenticate h level =
      send (h.finalBytes s.options level) fun reply =>
        done (s.settle (fun _ => .authenticated)
          ((Handshake.confirm reply).map fun _ => h.finalMac s.options level)) := by
  have hm := hs.maxData
  rw [externalAuthenticate, if_pos hst, hl]
  simp only [h.finish_eq s.options level (by omega) hm.2]
  rfl

/-- The new channel always has room for a MAC and for padding. -/
theorem Sound.exists_create (hs : s.Sound) (keys : SessionKeys) {level : SecurityLevel}
    (hl : level.validate = .ok ()) (icv : Block) :
    ∃ ch, Channel.create keys s.options level (some icv) s.config.maxData = .ok ch := by
  have hm := hs.maxData
  have hroom := level.overhead_le
  exact ⟨_, Channel.create_eq_ok_iff.mpr ⟨hl, s.config.maxData - level.overhead,
    Channel.dataRoom_eq_ok_iff.mpr ⟨hm.2, by omega⟩, rfl⟩⟩

theorem trace_initializeUpdateWith_iff {keyVersion : UInt8} {hostChallenge : Block}
    {outcome : Except Error Handshake × Session} :
    Trace (s.initializeUpdateWith keyVersion hostChallenge) events outcome ↔
      ∃ reply, events = [.sent (InitializeUpdate.bytes keyVersion hostChallenge) reply] ∧
        outcome = s.settle (fun _ => .challenged) (s.judge keyVersion hostChallenge reply) := by
  rw [initializeUpdateWith_eq, trace_send_done_iff]

theorem trace_initializeUpdate_iff {keyVersion : UInt8}
    {outcome : Except Error Handshake × Session} :
    Trace (s.initializeUpdate keyVersion) events outcome ↔
      ∃ hostChallenge reply,
        events = [.drawn hostChallenge,
          .sent (InitializeUpdate.bytes keyVersion hostChallenge) reply] ∧
        outcome = s.settle (fun _ => .challenged) (s.judge keyVersion hostChallenge reply) := by
  have heq : s.initializeUpdate keyVersion = draw (s.initializeUpdateWith keyVersion) := rfl
  simp only [heq, trace_draw_iff, trace_initializeUpdateWith_iff]
  constructor
  · rintro ⟨hostChallenge, _, rfl, reply, rfl, rfl⟩
    exact ⟨hostChallenge, reply, rfl, rfl⟩
  · rintro ⟨hostChallenge, reply, rfl, rfl⟩
    exact ⟨hostChallenge, _, rfl, reply, rfl, rfl⟩

theorem trace_externalAuthenticate_iff (hs : s.Sound) (hst : s.stage = .challenged)
    {h : Handshake} {level : SecurityLevel} (hl : level.validate = .ok ())
    {outcome : Except Error Block × Session} :
    Trace (s.externalAuthenticate h level) events outcome ↔
      ∃ reply, events = [.sent (h.finalBytes s.options level) reply] ∧
        outcome = s.settle (fun _ => .authenticated)
          ((Handshake.confirm reply).map fun _ => h.finalMac s.options level) := by
  rw [externalAuthenticate_eq hs hst h hl, trace_send_done_iff]

theorem Sound.enter_challenged (hs : s.Sound) : (s.enter .challenged).Sound :=
  ⟨hs.config, fun hst => nomatch hst⟩

/-- The whole handshake: each half goes on only if the card gave the right answer. -/
theorem openChannel_eq (hs : s.Sound) {level : SecurityLevel} (hl : level.validate = .ok ()) :
    s.openChannel level = draw fun hostChallenge =>
      send (InitializeUpdate.bytes s.config.keyVersion hostChallenge) fun first =>
        match s.judge s.config.keyVersion hostChallenge first with
        | .error error => done (.error error, s.enter .failed)
        | .ok h => send (h.finalBytes s.options level) fun second =>
          match Handshake.confirm second with
          | .error error => done (.error error, s.enter .failed)
          | .ok () =>
            let icv := h.finalMac s.options level
            let outcome := s.settle .opened
              (Channel.create h.keys s.options level (some icv) s.config.maxData)
            done (outcome.1.map fun _ => (), outcome.2) := by
  have hstart (hostChallenge : Block) := s.initializeUpdateWith_eq s.config.keyVersion hostChallenge
  rw [openChannel, hl, initializeUpdate]
  simp only [drawChallenge, bind_eq, Dialogue.bind, hstart]
  congr 1
  funext hostChallenge
  congr 1
  funext first
  cases s.judge s.config.keyVersion hostChallenge first with
  | error error => rfl
  | ok h =>
    have hfinish := externalAuthenticate_eq hs.enter_challenged rfl h hl
    simp only [settle, hfinish, Dialogue.bind]
    congr 1
    funext second
    cases Handshake.confirm second <;> rfl

theorem Sound.transition_openChannel (hs : s.Sound) {level : SecurityLevel}
    (hl : level.validate = .ok ()) {outcome : Except Error Unit × Session}
    (ht : Trace (s.openChannel level) events outcome) :
    s.Transition (.openChannel level) events (outcome.1.map fun _ => .opened) outcome.2 := by
  rw [openChannel_eq hs hl] at ht
  obtain ⟨hostChallenge, later, rfl, h₁⟩ := trace_draw_iff.mp ht
  obtain ⟨first, later, rfl, h₂⟩ := trace_send_iff.mp h₁
  cases hj : s.judge s.config.keyVersion hostChallenge first with
  | error error =>
    rw [hj] at h₂
    obtain ⟨rfl, rfl⟩ := trace_done_iff.mp h₂
    exact .openNotChallenged hl hj
  | ok h =>
    rw [hj] at h₂
    obtain ⟨second, later, rfl, h₃⟩ := trace_send_iff.mp h₂
    cases hc : Handshake.confirm second with
    | error error =>
      rw [hc] at h₃
      obtain ⟨rfl, rfl⟩ := trace_done_iff.mp h₃
      exact .openNotAuthenticated hl hj hc
    | ok _ =>
      obtain ⟨ch, hcreate⟩ := hs.exists_create h.keys hl (h.finalMac s.options level)
      rw [hc] at h₃
      obtain ⟨rfl, rfl⟩ := trace_done_iff.mp h₃
      simp only [hcreate]
      exact .opened hj hc hcreate

theorem transmit_of_le {c : Command} {ch : Channel} {bytes : List UInt8}
    (hst : s.stage = .opened ch) (hle : c.payload.length ≤ ch.maxData)
    (hb : (ch.protect c).toBytes = .ok bytes) :
    s.transmit c = send bytes fun reply =>
      let outcome := (ch.advance c).receive reply
      done (outcome.1, s.afterTransmit outcome.2 outcome.1) := by
  rw [transmit_of_some (channel?_eq_some_iff.mpr hst), Channel.transmit_of_le hle hb]
  rfl

theorem trace_transmit_iff {c : Command} {ch : Channel} {bytes : List UInt8}
    (hst : s.stage = .opened ch) (hle : c.payload.length ≤ ch.maxData)
    (hb : (ch.protect c).toBytes = .ok bytes) {outcome : Except Error Response × Session} :
    Trace (s.transmit c) events outcome ↔
      ∃ reply, events = [.sent bytes reply] ∧
        outcome = (((ch.advance c).receive reply).1,
          s.afterTransmit ((ch.advance c).receive reply).2 ((ch.advance c).receive reply).1) := by
  rw [transmit_of_le hst hle hb, trace_send_done_iff]

theorem afterTransmit_of_error {ch after : Channel} {reply : Reply} {error : Error}
    (hr : ch.receive reply = (.error error, after)) :
    s.afterTransmit after (.error error) = s.enter .failed := by
  unfold afterTransmit
  split
  · simp_all
  · rename_i heq
    cases heq
    exact absurd hr Channel.receive_ne_dataTooLong
  · rfl

/-- The channel stays open after an accepted response, and after nothing else that was sent. -/
theorem stage_afterTransmit_iff {ch after : Channel} {reply : Reply} :
    (s.afterTransmit (ch.receive reply).2 (ch.receive reply).1).stage = .opened after ↔
      ∃ r, ch.receive reply = (.ok r, after) := by
  rcases hr : ch.receive reply with ⟨result, last⟩
  cases result with
  | ok r =>
    show Stage.opened last = .opened after ↔ _
    simp
  | error error =>
    rw [afterTransmit_of_error hr]
    show Stage.failed = .opened after ↔ _
    simp

theorem Sound.transition_transmit (hs : s.Sound) {c : Command} {ch : Channel}
    (hop : operation.command? = some c) (hst : s.stage = .opened ch)
    {outcome : Except Error Response × Session} (ht : Trace (s.transmit c) events outcome) :
    s.Transition operation events (outcome.1.map operation.present) outcome.2 := by
  by_cases hlt : ch.maxData < c.payload.length
  · rw [transmit_of_lt hst hlt] at ht
    obtain ⟨rfl, rfl⟩ := trace_done_iff.mp ht
    exact .refused (.tooLong hop (channel?_eq_some_iff.mpr hst) hlt)
  · have hle := Nat.le_of_not_lt hlt
    obtain ⟨bytes, hb⟩ := (hs.fits hst).exists_toBytes hle
    obtain ⟨reply, rfl, rfl⟩ := (trace_transmit_iff hst hle hb).mp ht
    rcases hr : (ch.advance c).receive reply with ⟨error | response, after⟩
    · simp only [afterTransmit_of_error hr]
      exact .lost hop hst hle hb (by rw [hr])
    · exact .carried hop hst hle hb hr

theorem trace_answerWith_iff {α : Type} {answer : α → Answer}
    {d : Dialogue (Except Error α × Session)} :
    Trace (answerWith answer <$> d) events (result, next) ↔
      ∃ outcome, Trace d events (outcome, next) ∧ result = outcome.map answer :=
  trace_map_outcome_iff

theorem transition_settle_challenged {keyVersion : UInt8} {chosen : Option Block}
    {hostChallenge : Block} {drawn : List Event} (hd : Draws chosen hostChallenge drawn)
    (reply : Reply) {outcome : Except Error Handshake}
    (ho : (outcome, next) =
      s.settle (fun _ => .challenged) (s.judge keyVersion hostChallenge reply)) :
    s.Transition (.initializeUpdate keyVersion chosen)
      (drawn ++ [.sent (InitializeUpdate.bytes keyVersion hostChallenge) reply])
      (outcome.map .handshake) next := by
  cases hj : s.judge keyVersion hostChallenge reply with
  | error error =>
    rw [hj] at ho
    cases ho
    exact .notChallenged hd hj
  | ok h =>
    rw [hj] at ho
    cases ho
    exact .challenged hd hj

theorem Sound.transition_externalAuthenticate (hs : s.Sound) (hst : s.stage = .challenged)
    {h : Handshake} {level : SecurityLevel} (hl : level.validate = .ok ())
    {outcome : Except Error Block}
    (ht : Trace (s.externalAuthenticate h level) events (outcome, next)) :
    s.Transition (.externalAuthenticate h level) events (outcome.map .mac) next := by
  obtain ⟨reply, rfl, ho⟩ := (trace_externalAuthenticate_iff hs hst hl).mp ht
  cases hc : Handshake.confirm reply with
  | error error =>
    rw [hc] at ho
    cases ho
    exact .notAuthenticated hst hl hc
  | ok _ =>
    rw [hc] at ho
    cases ho
    exact .authenticated hst hl hc

/-- Every operation on a sound session ends in one of the outcomes. -/
theorem Sound.transition_of_trace (hs : s.Sound)
    (ht : Trace (s.perform operation) events (result, next)) :
    s.Transition operation events result next := by
  by_cases hr : ∃ error, s.Refuses operation error
  · obtain ⟨error, hr⟩ := hr
    rw [perform_of_refuses hr] at ht
    obtain ⟨rfl, h⟩ := trace_done_iff.mp ht
    cases h
    exact .refused hr
  cases hop : operation.command? with
  | some c =>
    rcases hch : s.channel? with _ | ch
    · exact absurd ⟨_, .transmitClosed hop hch⟩ hr
    · rw [perform_of_command hop] at ht
      obtain ⟨outcome, hin, rfl⟩ := trace_answerWith_iff.mp ht
      exact hs.transition_transmit hop (channel?_eq_some_iff.mp hch) hin
  | none =>
    match operation with
    | .initializeUpdate keyVersion none =>
      obtain ⟨outcome, hin, rfl⟩ := trace_answerWith_iff.mp ht
      obtain ⟨hostChallenge, reply, rfl, ho⟩ := trace_initializeUpdate_iff.mp hin
      exact transition_settle_challenged (.random hostChallenge) reply ho
    | .initializeUpdate keyVersion (some hostChallenge) =>
      obtain ⟨outcome, hin, rfl⟩ := trace_answerWith_iff.mp ht
      obtain ⟨reply, rfl, ho⟩ := trace_initializeUpdateWith_iff.mp hin
      exact transition_settle_challenged (.chosen hostChallenge) reply ho
    | .externalAuthenticate h level =>
      by_cases hst : s.stage = .challenged
      · cases hl : level.validate with
        | error error => exact absurd ⟨error, .finishLevel hst hl⟩ hr
        | ok _ =>
          obtain ⟨outcome, hin, rfl⟩ := trace_answerWith_iff.mp ht
          exact hs.transition_externalAuthenticate hst hl hin
      · exact absurd ⟨_, .finishStage hst⟩ hr
    | .openChannel level =>
      cases hl : level.validate with
      | error error => exact absurd ⟨error, .openLevel hl⟩ hr
      | ok _ =>
        obtain ⟨outcome, hin, rfl⟩ := trace_answerWith_iff.mp ht
        exact hs.transition_openChannel hl hin
    | .transmit c => cases hop
    | .transmitRaw bytes =>
      cases hc : Command.ofBytes bytes with
      | error cause => exact absurd ⟨_, .malformed hc⟩ hr
      | ok c =>
        rw [Operation.command?, hc] at hop
        cases hop
    | .encryptSensitive data =>
      obtain ⟨rfl, h⟩ := trace_done_iff.mp ht
      cases h
      rcases hch : s.channel? with _ | ch
      · exact absurd ⟨_, .encryptClosed hch⟩ hr
      · by_cases hmod : data.length % 8 = 0
        · have hok : ch.keys.dek.encryptBlocks data =
              .ok (Block.join ((Block.split data).map ch.keys.dek.encrypt)) := if_pos hmod
          rw [encryptSensitive_of_some hch hok]
          exact .encrypted (channel?_eq_some_iff.mp hch) hok
        · exact absurd ⟨_, .misaligned hch hmod⟩ hr
    | .close =>
      obtain ⟨rfl, h⟩ := trace_done_iff.mp ht
      cases h
      exact .closed

/-- Every outcome is one that some reader brings about. -/
theorem Sound.trace_of_transition (hs : s.Sound)
    (ht : s.Transition operation events result next) :
    Trace (s.perform operation) events (result, next) := by
  cases ht with
  | refused refuses =>
    rw [perform_of_refuses refuses]
    exact .done _
  | notChallenged draws judged | challenged draws judged =>
    cases draws with
    | random =>
      exact trace_answerWith_iff.mpr
        ⟨_, trace_initializeUpdate_iff.mpr ⟨_, _, rfl, by rw [judged]; rfl⟩, rfl⟩
    | chosen =>
      exact trace_answerWith_iff.mpr
        ⟨_, trace_initializeUpdateWith_iff.mpr ⟨_, rfl, by rw [judged]; rfl⟩, rfl⟩
  | notAuthenticated stage valid confirmed | authenticated stage valid confirmed =>
    exact trace_answerWith_iff.mpr
      ⟨_, (trace_externalAuthenticate_iff hs stage valid).mpr ⟨_, rfl, by rw [confirmed]; rfl⟩, rfl⟩
  | @openNotChallenged _ hostChallenge reply error valid judged =>
    refine trace_answerWith_iff.mpr ⟨.error error, ?_, rfl⟩
    rw [openChannel_eq hs valid]
    refine .draw (.send ?_)
    rw [judged]
    exact .done _
  | @openNotAuthenticated _ hostChallenge first second h error valid judged confirmed =>
    refine trace_answerWith_iff.mpr ⟨.error error, ?_, rfl⟩
    rw [openChannel_eq hs valid]
    refine .draw (.send ?_)
    rw [judged]
    refine .send ?_
    rw [confirmed]
    exact .done _
  | @opened _ hostChallenge first second h ch judged confirmed created =>
    refine trace_answerWith_iff.mpr ⟨.ok (), ?_, rfl⟩
    rw [openChannel_eq hs (Channel.create_eq_ok_iff.mp created).1]
    refine .draw (.send ?_)
    rw [judged]
    refine .send ?_
    rw [confirmed]
    simp only [created]
    exact .done _
  | @lost _ c ch bytes reply error command stage fits encoded received =>
    rw [perform_of_command command, trace_answerWith_iff]
    refine ⟨.error error, (trace_transmit_iff stage fits encoded).mpr ⟨reply, rfl, ?_⟩, rfl⟩
    rcases hr : (ch.advance c).receive reply with ⟨outcome, after⟩
    rw [hr] at received
    obtain rfl : outcome = .error error := received
    rw [afterTransmit_of_error hr]
  | @carried _ c ch after bytes reply r command stage fits encoded received =>
    rw [perform_of_command command, trace_answerWith_iff]
    refine ⟨.ok r, (trace_transmit_iff stage fits encoded).mpr ⟨reply, rfl, ?_⟩, rfl⟩
    rw [received]
    rfl
  | encrypted stage encrypts =>
    rw [perform, encryptSensitive_of_some (channel?_eq_some_iff.mpr stage) encrypts]
    exact .done _
  | closed => exact .done _

/-! ### Reachable sessions -/

theorem sound_of_create {keys : KeyProvider} {card : CardProfile} {config : Config}
    (h : create keys card config = .ok s) : s.Sound := by
  obtain ⟨hconfig, -, rfl⟩ := create_eq_ok_iff.mp h
  exact ⟨hconfig, fun hst => nomatch hst⟩

theorem Sound.withKeys (hs : s.Sound) (keys : KeyProvider) : (s.withKeys keys).Sound :=
  ⟨hs.config, hs.fits⟩

/-- One step of a run, with the provider that answers in it. -/
theorem Sound.step {keys : KeyProvider} (hs : s.Sound)
    (first : Trace ((s.withKeys keys).perform operation) events (result, next)) :
    (s.withKeys keys).Transition operation events result next ∧ next.Sound :=
  have ht := (hs.withKeys keys).transition_of_trace first
  ⟨ht, ht.sound (hs.withKeys keys)⟩

theorem Sound.run {steps : List Step} (hs : s.Sound) (h : Run s steps last) : last.Sound := by
  induction h with
  | done => exact hs
  | step first _ ih => exact ih (hs.step first).2

theorem Reachable.sound (h : s.Reachable) : s.Sound := by
  obtain ⟨keys, card, config, new, steps, hcreate, hrun⟩ := h
  exact (sound_of_create hcreate).run hrun

end Session

end CardChannel
