import CardChannel.Proofs.Card
import CardChannel.Proofs.KeyDerivation
import CardChannel.Proofs.Session.RecordedReply
import CardChannel.Proofs.Stepwise.Session

/-! The outcome of opening a channel with the keys of a set.  Two replies decide it: the first has to
answer INITIALIZE UPDATE as the host expects, and then EXTERNAL AUTHENTICATE is sent, to which the
second has to end in 9000.  `OpeningError` lists the errors that the two can give; the lengths of
keys, data and commands are always right, the new channel always has room, and so nothing else can
go wrong on the way: `openChannel_outcome`. -/

namespace CardChannel

/-- Why a channel at a valid level may fail to open. -/
inductive OpeningError : Error → Prop where
  | transport (cause : TransportError) : OpeningError (.transport cause)
  | incomplete : OpeningError (.apdu (.response .incomplete))
  | invalidLength (actual : Nat) : OpeningError (.invalidLength 28 actual)
  | cardLocked (status : StatusWord) : OpeningError (.cardLocked status)
  | referencedDataNotFound : OpeningError .referencedDataNotFound
  | cardStatus (command : String) (status : StatusWord) : OpeningError (.cardStatus command status)
  | unsupportedVersion (version : UInt8) : OpeningError (.unsupportedVersion version)
  | keyVersionMismatch (requested reported : UInt8) :
      OpeningError (.keyVersionMismatch requested reported)
  | keyNotFound (id version : UInt8) : OpeningError (.keyNotFound id version)
  | invalidCardCryptogram : OpeningError Handshake.invalidCardCryptogram
  | hostCryptogramRejected : OpeningError .hostCryptogramRejected

namespace OpeningError

variable {error : Error}

/-- Two steps in a row fail with an error of one of them. -/
theorem of_bind {α β : Type} {first : Except Error α} {second : α → Except Error β}
    (h : first >>= second = .error error) (h₁ : ∀ {e}, first = .error e → OpeningError e)
    (h₂ : ∀ {value}, second value = .error error → OpeningError error) : OpeningError error := by
  cases first with
  | error cause =>
    cases h
    exact h₁ rfl
  | ok value => exact h₂ h

theorem of_response (cause : ResponseError) : OpeningError (.apdu (.response cause)) := by
  cases cause
  exact .incomplete

theorem of_ofBytes {raw : List UInt8} (h : InitializeUpdate.Reply.ofBytes raw = .error error) :
    OpeningError error := by
  unfold InitializeUpdate.Reply.ofBytes at h
  split at h
  · cases h
    exact .of_response _
  · unfold InitializeUpdate.Reply.ofResponse at h
    split at h
    · unfold InitializeUpdate.Reply.ofPayload Octets.expect at h
      split at h
      · cases h
      · cases h
        exact .invalidLength _
    · split at h
      · cases h
        exact .cardLocked _
      · split at h <;> cases h
        · exact .referencedDataNotFound
        · exact .cardStatus _ _

theorem of_derive {set : KeySet} {base : BaseKeys} {version : UInt8} {counter : SequenceCounter}
    (h : SessionKeys.derive set base version counter = .error error) : OpeningError error := by
  obtain ⟨id, -, rfl⟩ := SessionKeys.derive_eq_error_iff.mp h
  exact .keyNotFound id version

theorem of_accept {set : KeySet} {base : BaseKeys} {requested : UInt8} {hostChallenge : Block}
    {reply : InitializeUpdate.Reply}
    (h : Handshake.accept set base requested hostChallenge reply = .error error) :
    OpeningError error := by
  unfold Handshake.accept at h
  split at h
  · cases h
    exact .unsupportedVersion _
  split at h
  · cases h
    exact .keyVersionMismatch _ _
  refine of_bind h of_derive fun h => ?_
  dsimp only at h
  split at h <;> cases h
  exact .invalidCardCryptogram

theorem of_judge {set : KeySet} {base : BaseKeys} {requested : UInt8} {hostChallenge : Block}
    {reply : Reply} (h : Handshake.judge set base requested hostChallenge reply = .error error) :
    OpeningError error := by
  match reply with
  | .error cause =>
    cases h
    exact .transport cause
  | .ok raw =>
    exact of_bind h of_ofBytes of_accept

theorem of_confirm {reply : Reply} (h : Handshake.confirm reply = .error error) :
    OpeningError error := by
  match reply with
  | .error cause =>
    cases h
    exact .transport cause
  | .ok raw =>
    change ExternalAuthenticate.checkBytes raw = .error error at h
    unfold ExternalAuthenticate.checkBytes at h
    split at h
    · cases h
      exact .of_response _
    · unfold ExternalAuthenticate.checkResponse at h
      split at h
      · cases h
      · split at h <;> cases h
        · exact .hostCryptogramRejected
        · exact .cardStatus _ _

end OpeningError

namespace Session

open Dialogue Stepwise

variable {s next : Session} {level : SecurityLevel} {events : List Event}
  {result : Except Error Unit}

theorem map_eq_error {α β : Type} {f : α → β} {x : Except Error α} {error : Error}
    (h : x.map f = .error error) : x = .error error := by
  cases x <;> cases h
  rfl

/-- INITIALIZE UPDATE for the configured key version succeeds with this reply, and the handshake is
`h`. -/
def Admits (s : Session) (hostChallenge : Block) (reply : Reply) (h : Handshake) : Prop :=
  ∃ next, Trace (s.fields.initializeUpdateWith s.keys s.config.keyVersion hostChallenge)
    [.sent (InitializeUpdate.bytes s.config.keyVersion hostChallenge) reply] (.ok h, next)

theorem admits_iff {hostChallenge : Block} {reply : Reply} {h : Handshake} :
    s.Admits hostChallenge reply h ↔ s.judge s.config.keyVersion hostChallenge reply = .ok h := by
  simp only [Admits, initializeUpdateWith_fields, trace_laidOut_iff,
    trace_initializeUpdateWith_iff]
  constructor
  · rintro ⟨_, next, ⟨other, heq, hsettle⟩, rfl⟩
    cases heq
    cases hj : s.judge s.config.keyVersion hostChallenge reply with
    | error error => rw [hj] at hsettle; cases hsettle
    | ok h' => rw [hj] at hsettle; cases hsettle; rfl
  · intro hj
    exact ⟨_, s.enter .challenged, ⟨reply, rfl, by rw [hj]; rfl⟩, rfl⟩

/-- The channel that two exchanges open: its keys come from the first reply, and both of its chains
start from the last eight bytes of the second command. -/
def Establishes (s : Session) (level : SecurityLevel) (first : Reply) (rest : List Event)
    (f : Fields) : Prop :=
  ∃ (reply : InitializeUpdate.Reply) (keys : SessionKeys) (front : List UInt8) (mac : Block)
      (second : Reply) (ch : Channel),
    first = .ok reply.bytes ∧
    SessionKeys.derive s.keys (s.config.baseKeys s.options) reply.keyVersion
      reply.sequenceCounter = .ok keys ∧
    rest = [.sent (front ++ mac.toBytes) second] ∧
    Channel.create keys s.options level (some mac) s.config.maxData = .ok ch ∧
    ch.icv = some mac ∧ ch.responseIcv = mac ∧
    f = { s.fields with phase := .opened, channel := some ch }

/-- How opening a channel ends, given what was seen after the host challenge was drawn. -/
structure Outcome (s : Session) (level : SecurityLevel) (hostChallenge : Block) (first : Reply)
    (rest : List Event) (result : Except Error Unit) (f : Fields) : Prop where
  stops : (¬ ∃ h, s.Admits hostChallenge first h) → rest = []
  goesOn : ∀ h, s.Admits hostChallenge first h →
    ∃ second, rest = [.sent (h.finalBytes s.options level) second]
  succeeds_iff : result = .ok () ↔ (∃ h, s.Admits hostChallenge first h) ∧
    ∃ apdu data, rest = [.sent apdu (.ok (data ++ [0x90, 0x00]))]
  establishes : result = .ok () → s.Establishes level first rest f
  fails : ∀ error, result = .error error → OpeningError error ∧ f = s.fields.fail

theorem establishes_of_judge {hostChallenge : Block} {first second : Reply} {h : Handshake}
    {ch : Channel} (hj : s.judge s.config.keyVersion hostChallenge first = .ok h)
    (hcreate : Channel.create h.keys s.options level (some (h.finalMac s.options level))
      s.config.maxData = .ok ch) :
    s.Establishes level first [.sent (h.finalBytes s.options level) second]
      (s.enter (.opened ch)).fields := by
  obtain ⟨hfirst, hsuits, -⟩ := Handshake.suits_of_judge hj
  obtain ⟨-, room, -, hch⟩ := Channel.create_eq_ok_iff.mp hcreate
  exact ⟨h.reply, h.keys, _, h.finalMac s.options level, second, ch, hfirst, hsuits.derived, rfl,
    hcreate, by rw [hch], by rw [hch]; rfl, rfl⟩

/-- The second half of the handshake is that of the handshake which was admitted. -/
theorem goesOn_of_judge {hostChallenge : Block} {first second : Reply} {h : Handshake}
    (hj : s.judge s.config.keyVersion hostChallenge first = .ok h) (h' : Handshake)
    (hadmits : s.Admits hostChallenge first h') :
    ∃ reply, [Event.sent (h.finalBytes s.options level) second] =
      [.sent (h'.finalBytes s.options level) reply] := by
  obtain rfl : h = h' := Except.ok.inj (hj.symm.trans (admits_iff.mp hadmits))
  exact ⟨second, rfl⟩

theorem Outcome.of_error {hostChallenge : Block} {first : Reply} {rest : List Event}
    {error : Error} (stops : (¬ ∃ h, s.Admits hostChallenge first h) → rest = [])
    (goesOn : ∀ h, s.Admits hostChallenge first h →
      ∃ second, rest = [.sent (h.finalBytes s.options level) second])
    (unconfirmed : ∀ apdu data, rest ≠ [.sent apdu (.ok (data ++ [0x90, 0x00]))])
    (cause : OpeningError error) :
    s.Outcome level hostChallenge first rest (.error error) s.fields.fail where
  stops := stops
  goesOn := goesOn
  succeeds_iff := iff_of_false (by simp) fun ⟨_, apdu, data, h⟩ => unconfirmed apdu data h
  establishes h := absurd h (by simp)
  fails _ h := Except.error.inj h ▸ ⟨cause, rfl⟩

theorem Sound.outcome_openChannel {set : KeySet} (hs : s.Sound) (hkeys : s.keys = set)
    (hl : level.validate = .ok ()) (ht : Trace (s.openChannel level) events (result, next)) :
    ∃ hostChallenge first rest,
      events = .drawn hostChallenge ::
        .sent (InitializeUpdate.bytes s.config.keyVersion hostChallenge) first :: rest ∧
      s.Outcome level hostChallenge first rest result next.fields := by
  have htransition := hs.transition_openChannel hl ht
  generalize hanswer : result.map (fun _ => Answer.opened) = answer at htransition
  cases htransition with
  | refused refuses =>
    cases refuses with
    | openLevel invalid => rw [hl] at invalid; cases invalid
    | transmitClosed command | tooLong command => cases command
  | lost command | carried command => cases command
  | @openNotChallenged _ hostChallenge first error _ judged =>
    obtain rfl : result = .error error := map_eq_error hanswer
    rw [judge, hkeys] at judged
    refine ⟨hostChallenge, first, [], rfl,
      .of_error (fun _ => rfl) (fun h hadmits => ?_) (by simp) (.of_judge judged)⟩
    rw [admits_iff, judge, hkeys, judged] at hadmits
    cases hadmits
  | @openNotAuthenticated _ hostChallenge first second h error _ judged confirmed =>
    obtain rfl : result = .error error := map_eq_error hanswer
    refine ⟨hostChallenge, first, _, rfl,
      .of_error (fun hnot => absurd ⟨h, admits_iff.mpr judged⟩ hnot) (goesOn_of_judge judged)
        (fun apdu data hsecond => ?_) (.of_confirm confirmed)⟩
    cases hsecond
    rw [Handshake.confirm_eq_ok_iff.mpr ⟨data, rfl⟩] at confirmed
    cases confirmed
  | @opened _ hostChallenge first second h ch judged confirmed created =>
    obtain ⟨⟨⟩, rfl, -⟩ := map_eq_ok_iff.mp hanswer
    obtain ⟨data, rfl⟩ := Handshake.confirm_eq_ok_iff.mp confirmed
    have hadmits : ∃ h, s.Admits hostChallenge first h := ⟨h, admits_iff.mpr judged⟩
    exact ⟨hostChallenge, first, _, rfl,
      { stops := fun hnot => absurd hadmits hnot
        goesOn := goesOn_of_judge judged
        succeeds_iff := ⟨fun _ => ⟨hadmits, _, data, rfl⟩, fun _ => rfl⟩
        establishes := fun _ => establishes_of_judge judged created
        fails := fun _ h => absurd h (by simp) }⟩

/-- Opening a channel with the keys of a set, against any reader, comes to an end, with and without
the checks on the way.  EXTERNAL AUTHENTICATE is sent exactly if the first reply is admitted, and
opening succeeds if and only if both replies are right. -/
theorem openChannel_outcome {σ : Type} {set : KeySet} (hs : s.Reachable) (hkeys : s.keys = set)
    (hl : level.validate = .ok ()) (reader : Reader σ) (state : σ) :
    ∃ hostChallenge first rest result next last,
      (s.fields.openChannel s.keys level).record reader state =
        (.drawn hostChallenge ::
          .sent (InitializeUpdate.bytes s.config.keyVersion hostChallenge) first :: rest,
          (result, next.fields), last) ∧
      (s.openChannel level).record reader state =
        (.drawn hostChallenge ::
          .sent (InitializeUpdate.bytes s.config.keyVersion hostChallenge) first :: rest,
          (result, next), last) ∧
      s.Outcome level hostChallenge first rest result next.fields := by
  have htrace := trace_record reader (s.openChannel level) state
  have hlaid := record_laidOut reader (s.openChannel level) state
  rw [← openChannel_fields hs.sound] at hlaid
  rcases hrecord : (s.openChannel level).record reader state with ⟨events, ⟨result, next⟩, last⟩
  rw [hrecord] at htrace hlaid
  obtain ⟨hostChallenge, first, rest, rfl, houtcome⟩ := hs.sound.outcome_openChannel hkeys hl htrace
  exact ⟨hostChallenge, first, rest, result, next, last, hlaid, rfl, houtcome⟩

/-- A channel is opened with a card that keeps to the protocol. -/
theorem openChannel_outcome_unmodified :
    Card.unmodified.Reachable ∧ Card.unmodified.keys = KeySet.default ∧
    SecurityLevel.cMacOnly.validate = .ok () ∧
    ∃ hostChallenge first rest last, ∃ next : Session,
      (Card.unmodified.fields.openChannel KeySet.default .cMacOnly).record
          (Card.obliging Card.unmodified).reader ⟨.idle, ()⟩ =
        (.drawn hostChallenge :: .sent (InitializeUpdate.bytes 0 hostChallenge) first :: rest,
          (.ok (), next.fields), last) ∧
      (∃ h second, Card.unmodified.Admits hostChallenge first h ∧
        rest = [.sent (h.finalBytes Card.unmodified.options .cMacOnly) second]) ∧
      Card.unmodified.Establishes .cMacOnly first rest next.fields := by
  have hreachable := Card.reachable_unmodified
  have hlevel : SecurityLevel.cMacOnly.validate = .ok () := rfl
  obtain ⟨events, ch, mirror, htransition, hanswers, -⟩ :=
    Card.serves_unmodified.opens hreachable.sound hlevel (Card.ready_idle ())
  obtain ⟨outcome, htrace, houtcome⟩ :=
    trace_answerWith_iff.mp (hreachable.sound.trace_of_transition htransition)
  obtain ⟨hostChallenge, first, rest, result, next, last, hrecord, hplain, hends⟩ :=
    openChannel_outcome hreachable rfl hlevel (Card.obliging Card.unmodified).reader ⟨.idle, ()⟩
  rw [record_of_trace htrace hanswers] at hplain
  cases hplain
  obtain ⟨⟨⟩, rfl, -⟩ := map_eq_ok_iff.mp houtcome.symm
  obtain ⟨⟨h, hadmits⟩, -⟩ := hends.succeeds_iff.mp rfl
  obtain ⟨second, hrest⟩ := hends.goesOn h hadmits
  exact ⟨hreachable, rfl, hlevel, hostChallenge, first, rest, _, _, hrecord,
    ⟨h, second, hadmits, hrest⟩, hends.establishes rfl⟩

end Session

end CardChannel
