import CardChannel.Proofs.Stepwise.Handshake
import CardChannel.Proofs.Session.Transition

/-! A session whose stage and channel are fields of their own.  Nothing in their types keeps the two
in step: every operation writes them one after the other, some on paths that end in an error, and a
channel could be left behind where the stage says that there is none.  The provider of the keys is
not one of the fields: like the card, it is outside, and is there for the operations that need it.
`Session.fields` is a session laid out in this way.  On what a sound session is laid out as, every
operation does what it does on the session, event for event (`perform_fields`), and so does every
sequence of operations (`run_fields_iff`). -/

namespace CardChannel

namespace Stepwise

inductive Phase where
  | new
  | challenged
  | authenticated
  | opened
  | failed
deriving DecidableEq

structure Fields where
  options : Options
  config : Config
  phase : Phase
  channel : Option Channel
deriving DecidableEq

namespace Fields

def level? (f : Fields) : Option SecurityLevel := f.channel.map Channel.level

def fail (f : Fields) : Fields := { f with channel := none, phase := .failed }

def initializeUpdateWith (f : Fields) (keys : KeyProvider) (keyVersion : UInt8)
    (hostChallenge : Block) : Dialogue (Except Error Handshake × Fields) := do
  let f := { f with channel := none, phase := .new }
  match ← start keys (f.config.baseKeys f.options) keyVersion hostChallenge with
  | .ok h => return (.ok h, { f with phase := .challenged })
  | .error error => return (.error error, f.fail)

def initializeUpdate (f : Fields) (keys : KeyProvider) (keyVersion : UInt8) :
    Dialogue (Except Error Handshake × Fields) := do
  f.initializeUpdateWith keys keyVersion (← Dialogue.drawChallenge)

def externalAuthenticate (f : Fields) (h : Handshake) (level : SecurityLevel) :
    Dialogue (Except Error Block × Fields) :=
  if f.phase ≠ .challenged then .done (.error Session.handshakeMissing, f)
  else
    match level.validate with
    | .error error => .done (.error error, f)
    | .ok () => do
      match ← finish h f.options level f.config.maxData with
      | .ok icv => return (.ok icv, { f with phase := .authenticated })
      | .error error => return (.error error, f.fail)

def openChannel (f : Fields) (keys : KeyProvider) (level : SecurityLevel) :
    Dialogue (Except Error Unit × Fields) :=
  match level.validate with
  | .error error => .done (.error error, f)
  | .ok () => do
    match ← f.initializeUpdate keys f.config.keyVersion with
    | (.error error, f) => return (.error error, f)
    | (.ok h, f) =>
      match ← f.externalAuthenticate h level with
      | (.error error, f) => return (.error error, f)
      | (.ok icv, f) =>
        match Channel.create h.keys f.options level (some icv) f.config.maxData with
        | .ok ch => return (.ok (), { f with channel := some ch, phase := .opened })
        | .error error => return (.error error, f.fail)

def afterTransmit (f : Fields) : Except Error Response → Fields
  | .ok _ => f
  | .error (.dataTooLong ..) => f
  | .error _ => f.fail

def transmit (f : Fields) (c : Command) : Dialogue (Except Error Response × Fields) :=
  match f.channel with
  | none => .done (.error .noSecureChannel, f)
  | some ch => do
    let (result, ch) ← Stepwise.transmit ch c
    return (result, { f with channel := some ch }.afterTransmit result)

def transmitRaw (f : Fields) (bytes : List UInt8) :
    Dialogue (Except Error (List UInt8) × Fields) :=
  match Command.ofBytes bytes with
  | .error error => .done (.error (.apdu error), f)
  | .ok c => do
    let (result, f) ← f.transmit c
    return (result.map Response.toBytes, f)

def encryptSensitive (f : Fields) (data : List UInt8) : Except Error (List UInt8) :=
  match f.channel with
  | none => .error .noSecureChannel
  | some ch => (encryptBlocks ch.keys.dek data).mapError .ofFault

def close (f : Fields) : Fields := { f with channel := none, phase := .new }

def answerWith {α : Type} (answer : α → Answer) (outcome : Except Error α × Fields) :
    Except Error Answer × Fields :=
  (outcome.1.map answer, outcome.2)

def perform (f : Fields) (keys : KeyProvider) : Operation → Dialogue (Except Error Answer × Fields)
  | .initializeUpdate keyVersion none =>
    answerWith .handshake <$> f.initializeUpdate keys keyVersion
  | .initializeUpdate keyVersion (some hostChallenge) =>
    answerWith .handshake <$> f.initializeUpdateWith keys keyVersion hostChallenge
  | .externalAuthenticate h level => answerWith .mac <$> f.externalAuthenticate h level
  | .openChannel level => answerWith (fun _ => .opened) <$> f.openChannel keys level
  | .transmit c => answerWith .response <$> f.transmit c
  | .transmitRaw bytes => answerWith .bytes <$> f.transmitRaw bytes
  | .encryptSensitive data => .done ((f.encryptSensitive data).map .bytes, f)
  | .close => .done (.ok .closed, f.close)

/-- The steps that lead from one state of the fields to another. -/
inductive Run : Fields → List Step → Fields → Prop where
  | done (f : Fields) : Run f [] f
  | step {f next last : Fields} {keys : KeyProvider} {operation : Operation}
      {events : List Dialogue.Event} {result : Except Error Answer} {rest : List Step}
      (first : Dialogue.Trace (f.perform keys operation) events (result, next))
      (tail : Run next rest last) :
      Run f (⟨keys, operation, events, result⟩ :: rest) last

/-- The operation is turned down with this error. -/
def Refuses (f : Fields) : Operation → Error → Prop :=
  Refusal (f.phase = .challenged) f.channel

end Fields

end Stepwise

def Stage.phase : Stage → Stepwise.Phase
  | .new => .new
  | .challenged => .challenged
  | .authenticated => .authenticated
  | .opened _ => .opened
  | .failed => .failed

def Session.fields (s : Session) : Stepwise.Fields :=
  ⟨s.options, s.config, s.stage.phase, s.channel?⟩

namespace Stepwise

/-- Fields that some sequence of operations leads to, from those of a session newly created. -/
def Fields.Reachable (f : Fields) : Prop :=
  ∃ keys card config new steps,
    Session.create keys card config = .ok new ∧ Fields.Run new.fields steps f

open Dialogue

/-- The same dialogue, with the session laid out at its end. -/
def laidOut {α : Type} (d : Dialogue (α × Session)) : Dialogue (α × Fields) :=
  (fun (value, s) => (value, s.fields)) <$> d

variable {s next last : Session} {α : Type}

@[simp] theorem laidOut_done (value : α) (s : Session) :
    laidOut (.done (value, s)) = .done (value, s.fields) := rfl

@[simp] theorem laidOut_send (apdu : List UInt8) (next : Reply → Dialogue (α × Session)) :
    laidOut (.send apdu next) = .send apdu fun reply => laidOut (next reply) := rfl

@[simp] theorem laidOut_draw (next : Block → Dialogue (α × Session)) :
    laidOut (.draw next) = .draw fun challenge => laidOut (next challenge) := rfl

theorem trace_laidOut_iff {d : Dialogue (α × Session)} {events : List Event} {value : α}
    {f : Fields} :
    Trace (laidOut d) events (value, f) ↔ ∃ s, Trace d events (value, s) ∧ f = s.fields := by
  rw [laidOut, trace_map_iff]
  constructor
  · rintro ⟨⟨value, s⟩, h, heq⟩
    cases heq
    exact ⟨s, h, rfl⟩
  · rintro ⟨s, h, rfl⟩
    exact ⟨(value, s), h, rfl⟩

/-- Against a reader, too, only the session at the end is laid out. -/
theorem record_laidOut {σ : Type} (reader : Reader σ) (d : Dialogue (α × Session)) (state : σ) :
    (laidOut d).record reader state =
      ((d.record reader state).1,
        ((d.record reader state).2.1.1, (d.record reader state).2.1.2.fields),
        (d.record reader state).2.2) := by
  induction d generalizing state with
  | done value => rfl
  | send apdu next ih => simp only [laidOut_send, record, ih]
  | draw next ih => simp only [laidOut_draw, record, ih]

/-! ### One operation -/

theorem phase_eq_challenged_iff : s.fields.phase = .challenged ↔ s.stage = .challenged := by
  cases hst : s.stage <;> simp [Session.fields, Stage.phase, hst]

theorem phase_eq_opened_iff : s.fields.phase = .opened ↔ ∃ ch, s.stage = .opened ch := by
  cases hst : s.stage <;> simp [Session.fields, Stage.phase, hst]

theorem refuses_fields (s : Session) : s.fields.Refuses = s.Refuses := by
  rw [Fields.Refuses, Session.Refuses, phase_eq_challenged_iff]
  rfl

theorem initializeUpdateWith_fields (s : Session) (keyVersion : UInt8) (hostChallenge : Block) :
    s.fields.initializeUpdateWith s.keys keyVersion hostChallenge =
      laidOut (s.initializeUpdateWith keyVersion hostChallenge) := by
  rw [Fields.initializeUpdateWith, start_eq, Handshake.start_eq, Session.initializeUpdateWith_eq,
    laidOut_send]
  simp only [bind_eq, Dialogue.bind, Session.judge, Session.fields]
  congr 1
  funext reply
  cases Handshake.judge s.keys (s.config.baseKeys s.options) keyVersion hostChallenge reply <;> rfl

theorem initializeUpdate_fields (s : Session) (keyVersion : UInt8) :
    s.fields.initializeUpdate s.keys keyVersion = laidOut (s.initializeUpdate keyVersion) :=
  congrArg draw (funext (initializeUpdateWith_fields s keyVersion))

theorem externalAuthenticate_fields (hs : s.Sound) (h : Handshake) (level : SecurityLevel) :
    s.fields.externalAuthenticate h level = laidOut (s.externalAuthenticate h level) := by
  by_cases hst : s.stage = .challenged
  · have hphase : ¬ s.fields.phase ≠ .challenged :=
      not_not_intro (phase_eq_challenged_iff.mpr hst)
    have hchannel : s.channel? = none := by rw [Session.channel?, hst]; rfl
    have hm := hs.maxData
    rw [Fields.externalAuthenticate, if_neg hphase]
    cases hl : level.validate with
    | error error =>
      rw [Session.externalAuthenticate, if_pos hst, hl]
      rfl
    | ok _ =>
      rw [Session.externalAuthenticate_eq hs hst h hl, laidOut_send]
      simp only [Session.fields, hchannel, finish_eq h s.options level (by omega) hm.2,
        h.finish_eq s.options level (by omega) hm.2, bind_eq, Dialogue.bind]
      congr 1
      funext reply
      cases Handshake.confirm reply <;> rfl
  · have hphase : s.fields.phase ≠ .challenged := fun h => hst (phase_eq_challenged_iff.mp h)
    rw [Fields.externalAuthenticate, if_pos hphase, Session.externalAuthenticate, if_neg hst]
    rfl

theorem openChannel_fields (hs : s.Sound) (level : SecurityLevel) :
    s.fields.openChannel s.keys level = laidOut (s.openChannel level) := by
  cases hl : level.validate with
  | error error =>
    rw [Fields.openChannel, Session.openChannel, hl]
    rfl
  | ok _ =>
    have hstart (hostChallenge : Block) :
        s.fields.initializeUpdateWith s.keys s.fields.config.keyVersion hostChallenge =
          laidOut (s.initializeUpdateWith s.config.keyVersion hostChallenge) :=
      initializeUpdateWith_fields s s.config.keyVersion hostChallenge
    rw [Session.openChannel_eq hs hl, Fields.openChannel, hl, laidOut_draw]
    simp only [Fields.initializeUpdate, drawChallenge, bind_eq, Dialogue.bind, hstart,
      Session.initializeUpdateWith_eq, laidOut_send]
    congr 1
    funext hostChallenge
    congr 1
    funext first
    cases s.judge s.config.keyVersion hostChallenge first with
    | error error => rfl
    | ok h =>
      have hfinish := externalAuthenticate_fields hs.enter_challenged h level
      rw [Session.externalAuthenticate_eq hs.enter_challenged rfl h hl] at hfinish
      simp only [Session.settle, laidOut_done, Dialogue.bind, hfinish, laidOut_send]
      congr 1
      funext second
      cases Handshake.confirm second with
      | error error => rfl
      | ok _ =>
        -- Both sides branch on whether the new channel has room.
        show (match Channel.create h.keys s.options level (some (h.finalMac s.options level))
          s.config.maxData with | .ok ch => _ | .error error => _) = _
        cases Channel.create h.keys s.options level (some (h.finalMac s.options level))
          s.config.maxData <;> rfl

theorem afterTransmit_fields (s : Session) (ch : Channel) (result : Except Error Response) :
    (s.enter (.opened ch)).fields.afterTransmit result = (s.afterTransmit ch result).fields := by
  match result with
  | .ok _ => rfl
  | .error error => cases error <;> rfl

theorem transmit_fields (hs : s.Sound) (c : Command) :
    s.fields.transmit c = laidOut (s.transmit c) := by
  cases hch : s.channel? with
  | none =>
    rw [Fields.transmit, Session.fields, hch, Session.transmit_of_none hch, laidOut_done,
      Session.fields, hch]
  | some ch =>
    have hst := Session.channel?_eq_some_iff.mp hch
    have houtcome (ch : Channel) (result : Except Error Response) :
        { s.fields with channel := some ch }.afterTransmit result =
          (s.afterTransmit ch result).fields := by
      rw [← afterTransmit_fields, Session.fields, hst]
      rfl
    rw [Session.transmit_of_some hch, laidOut, map_eq_pure_bind, bind_assoc, Fields.transmit,
      show s.fields.channel = some ch from hch]
    simp only [transmit_eq (hs.fits hst), houtcome]
    rfl

theorem transmitRaw_fields (hs : s.Sound) (bytes : List UInt8) :
    s.fields.transmitRaw bytes = laidOut (s.transmitRaw bytes) := by
  rw [Fields.transmitRaw, Session.transmitRaw]
  cases Command.ofBytes bytes with
  | error error => rfl
  | ok c =>
    simp only [transmit_fields hs, laidOut, map_eq_pure_bind, bind_assoc, pure_bind]

theorem encryptSensitive_fields (s : Session) (data : List UInt8) :
    s.fields.encryptSensitive data = s.encryptSensitive data := by
  rw [Fields.encryptSensitive, Session.fields]
  simp only [encryptBlocks_eq]
  rfl

theorem perform_fields (hs : s.Sound) (operation : Operation) :
    s.fields.perform s.keys operation = laidOut (s.perform operation) := by
  have hanswer {β : Type} (answer : β → Answer) (d : Dialogue (Except Error β × Session)) :
      Fields.answerWith answer <$> laidOut d = laidOut (Session.answerWith answer <$> d) := by
    simp only [laidOut, Functor.map_map]
    rfl
  match operation with
  | .initializeUpdate _ none => rw [Fields.perform, initializeUpdate_fields, hanswer]; rfl
  | .initializeUpdate _ (some _) => rw [Fields.perform, initializeUpdateWith_fields, hanswer]; rfl
  | .externalAuthenticate _ _ =>
    rw [Fields.perform, externalAuthenticate_fields hs, hanswer]; rfl
  | .openChannel _ => rw [Fields.perform, openChannel_fields hs, hanswer]; rfl
  | .transmit _ => rw [Fields.perform, transmit_fields hs, hanswer]; rfl
  | .transmitRaw _ => rw [Fields.perform, transmitRaw_fields hs, hanswer]; rfl
  | .encryptSensitive _ => rw [Fields.perform, encryptSensitive_fields]; rfl
  | .close => rfl

/-! ### Sequences of operations -/

theorem trace_fields_iff {keys : KeyProvider} {operation : Operation} {events : List Event}
    {result : Except Error Answer} {f : Fields} (hs : s.Sound) :
    Trace (s.fields.perform keys operation) events (result, f) ↔
      ∃ next, Trace ((s.withKeys keys).perform operation) events (result, next) ∧
        f = next.fields := by
  have hperform : s.fields.perform keys operation = laidOut ((s.withKeys keys).perform operation) :=
    perform_fields (hs.withKeys keys) operation
  rw [hperform, trace_laidOut_iff]

theorem run_fields_iff {steps : List Step} {f : Fields} (hs : s.Sound) :
    Fields.Run s.fields steps f ↔ ∃ last, Run s steps last ∧ f = last.fields := by
  constructor
  · intro h
    generalize hstart : s.fields = start at h
    induction h generalizing s with
    | done => exact ⟨s, .done s, hstart.symm⟩
    | step first _ ih =>
      subst hstart
      obtain ⟨next, hfirst, rfl⟩ := (trace_fields_iff hs).mp first
      obtain ⟨last, htail, rfl⟩ := ih (hs.step hfirst).2 rfl
      exact ⟨last, .step hfirst htail, rfl⟩
  · rintro ⟨last, h, rfl⟩
    induction h with
    | done => exact .done _
    | step first _ ih =>
      exact .step ((trace_fields_iff hs).mpr ⟨_, first, rfl⟩) (ih (hs.step first).2)

theorem Fields.reachable_iff {f : Fields} :
    f.Reachable ↔ ∃ s : Session, s.Reachable ∧ f = s.fields := by
  constructor
  · rintro ⟨keys, card, config, new, steps, hcreate, hrun⟩
    obtain ⟨s, hsteps, rfl⟩ := (run_fields_iff (Session.sound_of_create hcreate)).mp hrun
    exact ⟨s, ⟨keys, card, config, new, steps, hcreate, hsteps⟩, rfl⟩
  · rintro ⟨s, ⟨keys, card, config, new, steps, hcreate, hrun⟩, rfl⟩
    exact ⟨keys, card, config, new, steps, hcreate,
      (run_fields_iff (Session.sound_of_create hcreate)).mpr ⟨s, hrun, rfl⟩⟩

end Stepwise

end CardChannel
