import CardChannel.Dialogue.Trace
import CardChannel.Session

/-! What a caller does with a session: a sequence of operations, each of which exchanges commands
and replies with the card and ends in an answer or an error.  `Run` relates a session to the steps
that can be taken from it, whatever the replies are and whatever the provider of the keys answers.
An operation asks for each session key at most once, and a provider that changes its answers is
another one at the next step.  `play` takes the steps against a given reader. -/

namespace CardChannel

namespace Dialogue

variable {α σ : Type}

/-- `run`, with the events that an onlooker sees. -/
def record (reader : Reader σ) : Dialogue α → σ → List Event × α × σ
  | done value, state => ([], value, state)
  | send apdu next, state =>
    let (reply, state) := reader.exchange apdu state
    let (events, result) := (next reply).record reader state
    (.sent apdu reply :: events, result)
  | draw next, state =>
    let (challenge, state) := reader.challenge state
    let (events, result) := (next challenge).record reader state
    (.drawn challenge :: events, result)

theorem trace_record (reader : Reader σ) (d : Dialogue α) (state : σ) :
    Trace d (d.record reader state).1 (d.record reader state).2.1 := by
  induction d generalizing state with
  | done value => exact .done value
  | send apdu next ih => exact .send (ih _ _)
  | draw next ih => exact .draw (ih _ _)

/-- The reader answers in this way, from one state to another. -/
inductive Answers (reader : Reader σ) : σ → List Event → σ → Prop where
  | nil (state : σ) : Answers reader state [] state
  | sent {state next last : σ} {apdu : List UInt8} {reply : Reply} {rest : List Event}
      (answer : reader.exchange apdu state = (reply, next)) (tail : Answers reader next rest last) :
      Answers reader state (.sent apdu reply :: rest) last
  | drawn {state next last : σ} {challenge : Block} {rest : List Event}
      (answer : reader.challenge state = (challenge, next))
      (tail : Answers reader next rest last) :
      Answers reader state (.drawn challenge :: rest) last

/-- A trace that the reader answers is the one that it brings about. -/
theorem record_of_trace {reader : Reader σ} {d : Dialogue α} {state last : σ}
    {events : List Event} {value : α} (ht : Trace d events value)
    (ha : Answers reader state events last) : d.record reader state = (events, value, last) := by
  induction ht generalizing state with
  | done value =>
    cases ha
    rfl
  | send _ ih =>
    cases ha with
    | sent answer tail => simp only [record, answer, ih tail]
  | draw _ ih =>
    cases ha with
    | drawn answer tail => simp only [record, answer, ih tail]

@[simp] theorem trace_send_iff {apdu : List UInt8} {next : Reply → Dialogue α}
    {events : List Event} {value : α} :
    Trace (send apdu next) events value ↔
      ∃ reply rest, events = .sent apdu reply :: rest ∧ Trace (next reply) rest value :=
  ⟨fun h => by cases h with | send rest => exact ⟨_, _, rfl, rest⟩,
    fun ⟨_, _, h, rest⟩ => h ▸ .send rest⟩

@[simp] theorem trace_draw_iff {next : Block → Dialogue α} {events : List Event} {value : α} :
    Trace (draw next) events value ↔
      ∃ challenge rest, events = .drawn challenge :: rest ∧ Trace (next challenge) rest value :=
  ⟨fun h => by cases h with | draw rest => exact ⟨_, _, rfl, rest⟩,
    fun ⟨_, _, h, rest⟩ => h ▸ .draw rest⟩

/-- A single command, with a value that depends on the reply to it. -/
theorem trace_send_done_iff {apdu : List UInt8} {value : Reply → α} {events : List Event}
    {result : α} :
    Trace (send apdu fun reply => done (value reply)) events result ↔
      ∃ reply, events = [.sent apdu reply] ∧ result = value reply := by
  simp only [trace_send_iff, trace_done_iff]
  constructor
  · rintro ⟨reply, _, rfl, rfl, rfl⟩
    exact ⟨reply, rfl, rfl⟩
  · rintro ⟨reply, rfl, rfl⟩
    exact ⟨reply, _, rfl, rfl, rfl⟩

/-- A dialogue that ends in an outcome and a state, of which only the outcome is rendered. -/
theorem trace_map_outcome_iff {β τ ε : Type} {answer : α → β}
    {d : Dialogue (Except ε α × τ)} {events : List Event} {result : Except ε β} {next : τ} :
    Trace ((fun outcome => (outcome.1.map answer, outcome.2)) <$> d) events (result, next) ↔
      ∃ outcome, Trace d events (outcome, next) ∧ result = outcome.map answer := by
  rw [trace_map_iff]
  constructor
  · rintro ⟨⟨outcome, after⟩, h, heq⟩
    cases heq
    exact ⟨outcome, h, rfl⟩
  · rintro ⟨outcome, h, rfl⟩
    exact ⟨(outcome, next), h, rfl⟩

end Dialogue

inductive Operation where
  /-- Start a handshake, with a random host challenge unless one is chosen. -/
  | initializeUpdate (keyVersion : UInt8) (chosen : Option Block)
  | externalAuthenticate (h : Handshake) (level : SecurityLevel)
  | openChannel (level : SecurityLevel)
  | transmit (c : Command)
  | transmitRaw (bytes : List UInt8)
  | encryptSensitive (data : List UInt8)
  | close
deriving DecidableEq

/-- What an operation gives when it succeeds. -/
inductive Answer where
  | handshake (h : Handshake)
  | mac (icv : Block)
  | opened
  | response (r : Response)
  | bytes (bytes : List UInt8)
  | closed
deriving DecidableEq

namespace Operation

/-- The command that the operation transmits. -/
def command? : Operation → Option Command
  | transmit c => some c
  | transmitRaw bytes => (Command.ofBytes bytes).toOption
  | _ => none

/-- A response as the operation hands it to its caller. -/
def present : Operation → Response → Answer
  | transmitRaw _, r => .bytes r.toBytes
  | _, r => .response r

/-- The operations that need an open channel. -/
def usesChannel : Operation → Bool
  | transmit _ | transmitRaw _ | encryptSensitive _ => true
  | _ => false

end Operation

namespace Session

/-- The session, with another provider for the keys of its next handshake. -/
def withKeys (s : Session) (keys : KeyProvider) : Session := { s with keys }

def answerWith {α : Type} (answer : α → Answer) (outcome : Except Error α × Session) :
    Except Error Answer × Session :=
  (outcome.1.map answer, outcome.2)

def perform (s : Session) : Operation → Dialogue (Except Error Answer × Session)
  | .initializeUpdate keyVersion none =>
    answerWith .handshake <$> s.initializeUpdate keyVersion
  | .initializeUpdate keyVersion (some hostChallenge) =>
    answerWith .handshake <$> s.initializeUpdateWith keyVersion hostChallenge
  | .externalAuthenticate h level => answerWith .mac <$> s.externalAuthenticate h level
  | .openChannel level => answerWith (fun _ => .opened) <$> s.openChannel level
  | .transmit c => answerWith .response <$> s.transmit c
  | .transmitRaw bytes => answerWith .bytes <$> s.transmitRaw bytes
  | .encryptSensitive data => .done ((s.encryptSensitive data).map .bytes, s)
  | .close => .done (.ok .closed, s.close)

end Session

/-- A command handed over, the operation that did so with its provider of keys, and what came
back. -/
structure Exchange where
  keys : KeyProvider
  operation : Operation
  apdu : List UInt8
  reply : Reply

/-- One operation and its provider of keys, what an onlooker saw of it, and how it ended. -/
structure Step where
  keys : KeyProvider
  operation : Operation
  events : List Dialogue.Event
  result : Except Error Answer

namespace Step

def exchanges (step : Step) : List Exchange :=
  step.events.filterMap fun
    | .sent apdu reply => some ⟨step.keys, step.operation, apdu, reply⟩
    | .drawn _ => none

end Step

/-- All that a sequence of steps hands over, in order. -/
def wire (steps : List Step) : List Exchange := steps.flatMap Step.exchanges

@[simp] theorem wire_nil : wire [] = [] := rfl

@[simp] theorem wire_cons (step : Step) (rest : List Step) :
    wire (step :: rest) = step.exchanges ++ wire rest := rfl

/-- The steps that lead from one session to another. -/
inductive Run : Session → List Step → Session → Prop where
  | done (s : Session) : Run s [] s
  | step {s next last : Session} {keys : KeyProvider} {operation : Operation}
      {events : List Dialogue.Event} {result : Except Error Answer} {rest : List Step}
      (first : Dialogue.Trace ((s.withKeys keys).perform operation) events (result, next))
      (tail : Run next rest last) :
      Run s (⟨keys, operation, events, result⟩ :: rest) last

namespace Run

variable {s last : Session} {first second : List Step}

theorem of_append (h : Run s (first ++ second) last) :
    ∃ mid, Run s first mid ∧ Run mid second last := by
  induction first generalizing s with
  | nil => exact ⟨s, .done s, h⟩
  | cons step rest ih =>
    cases h with
    | step trace tail =>
      obtain ⟨mid, h₁, h₂⟩ := ih tail
      exact ⟨mid, .step trace h₁, h₂⟩

end Run

/-- A session that some sequence of operations leads to, from one newly created. -/
def Session.Reachable (s : Session) : Prop :=
  ∃ keys card config new steps, Session.create keys card config = .ok new ∧ Run new steps s

namespace Session

variable {σ : Type}

/-- Perform operations one after the other against a reader. -/
def play (reader : Reader σ) (s : Session) : List Operation → σ → List Step × Session × σ
  | [], state => ([], s, state)
  | operation :: rest, state =>
    let (events, (result, next), state) := (s.perform operation).record reader state
    let (steps, outcome) := next.play reader rest state
    (⟨s.keys, operation, events, result⟩ :: steps, outcome)

theorem play_cons_of_trace {reader : Reader σ} {s next : Session} {operation : Operation}
    {events : List Dialogue.Event} {result : Except Error Answer} {state last : σ}
    (ht : Dialogue.Trace (s.perform operation) events (result, next))
    (ha : Dialogue.Answers reader state events last) (rest : List Operation) :
    s.play reader (operation :: rest) state =
      (⟨s.keys, operation, events, result⟩ :: (next.play reader rest last).1,
        (next.play reader rest last).2) := by
  rw [play, Dialogue.record_of_trace ht ha]

end Session

end CardChannel
