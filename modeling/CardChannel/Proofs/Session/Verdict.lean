import CardChannel.Proofs.KeyLookup
import CardChannel.Proofs.Session.RecordedReply
import CardChannel.Proofs.Stepwise.Session

/-! What a session makes of an answer to INITIALIZE UPDATE, for every sequence of bytes that may come
back.  `Verdict` has one case for each way in which it can end: an answer is looked at from the
outside in, its status before its length and its fields before its cryptogram, and each case says
that nothing looked at earlier was wrong.  Exactly one case applies to each answer, the case that
does decides what the caller gets and in which stage the session is left, and the answers without
fault are those that are `Acceptable` byte for byte: `initializeUpdate_verdict`. -/

namespace CardChannel

namespace InitializeUpdate

variable {raw : List UInt8} {reply : Reply}

/-- The places of the fields in an answer of thirty bytes that ends in 9000. -/
structure Layout (raw : List UInt8) (reply : Reply) : Prop where
  length : raw.length = 30
  diversificationData : raw.take 10 = reply.diversificationData.toList
  keyVersion : raw[10]? = some reply.keyVersion
  version : raw[11]? = some reply.version
  sequenceCounter : (raw.drop 12).take 2 = reply.sequenceCounter.toList
  cardChallenge : (raw.drop 14).take 6 = reply.cardChallenge.toList
  cardCryptogram : (raw.drop 20).take 8 = reply.cardCryptogram.toBytes
  status : raw.drop 28 = [0x90, 0x00]

theorem Layout.eq_bytes (h : Layout raw reply) : raw = reply.bytes := by
  have hfield (i n : Nat) : (raw.drop i).take n ++ raw.drop (i + n) = raw.drop i := by
    rw [← List.drop_drop, List.take_append_drop]
  have hversions : raw.drop 10 = reply.keyVersion :: reply.version :: raw.drop 12 := by
    obtain ⟨hkey, hkeyVersion⟩ := List.getElem?_eq_some_iff.mp h.keyVersion
    obtain ⟨hscp, hversion⟩ := List.getElem?_eq_some_iff.mp h.version
    rw [List.drop_eq_getElem_cons hkey, List.drop_eq_getElem_cons hscp, hkeyVersion, hversion]
  calc raw = raw.take 10 ++ raw.drop 10 := (List.take_append_drop 10 raw).symm
    _ = reply.bytes := by
      rw [hversions, ← hfield 12 2, ← hfield 14 6, ← hfield 20 8, h.diversificationData,
        h.sequenceCounter, h.cardChallenge, h.cardCryptogram, h.status]
      simp [Reply.bytes, Reply.payload, Response.toBytes, Response.success, StatusWord.toBytes,
        StatusWord.success]

theorem layout_bytes (reply : Reply) : Layout reply.bytes reply := by
  have hcryptogram : reply.cardCryptogram.toBytes.take 8 = reply.cardCryptogram.toBytes :=
    List.take_of_length_le (Nat.le_refl 8)
  constructor
  · exact reply.length_bytes
  all_goals
    simp (disch := simp [Octets.length_toList]) [Reply.bytes, Reply.payload, Response.toBytes,
      Response.success, StatusWord.toBytes, StatusWord.success, List.take_append, List.drop_append,
      Octets.length_toList, List.drop_eq_nil_of_le, hcryptogram]

theorem layout_iff : Layout raw reply ↔ raw = reply.bytes :=
  ⟨Layout.eq_bytes, fun h => h ▸ layout_bytes reply⟩

theorem exists_layout_iff :
    (∃ reply, Layout raw reply) ↔ raw.length = 30 ∧ raw.drop 28 = [0x90, 0x00] := by
  constructor
  · rintro ⟨reply, h⟩
    exact ⟨h.length, h.status⟩
  · rintro ⟨hlength, hstatus⟩
    have hcryptogram : ((raw.drop 20).take 8).length = 8 := by simp [hlength]
    exact ⟨{
      diversificationData := ⟨raw.take 10, by simp [hlength]⟩
      keyVersion := raw[10]
      version := raw[11]
      sequenceCounter := ⟨(raw.drop 12).take 2, by simp [hlength]⟩
      cardChallenge := ⟨(raw.drop 14).take 6, by simp [hlength]⟩
      cardCryptogram := .ofList ((raw.drop 20).take 8) },
      hlength, rfl, List.getElem?_eq_getElem _, List.getElem?_eq_getElem _, rfl, rfl,
      (Block.toBytes_ofList hcryptogram).symm, hstatus⟩

end InitializeUpdate

namespace Handshake

open InitializeUpdate (Layout)

variable {set : KeySet} {base : BaseKeys} {requested : UInt8} {hostChallenge : Block}
  {reply : Reply} {raw : List UInt8} {result : Except Error Handshake}

/-- How the handshake goes on after an answer to INITIALIZE UPDATE. -/
inductive Verdict (set : KeySet) (base : BaseKeys) (requested : UInt8) (hostChallenge : Block) :
    Reply → Except Error Handshake → Prop where
  | transport (cause : TransportError) :
      Verdict set base requested hostChallenge (.error cause) (.error (.transport cause))
  | incomplete {raw : List UInt8} (short : raw.length < 2) :
      Verdict set base requested hostChallenge (.ok raw) (.error (.apdu (.response .incomplete)))
  | locked {data : List UInt8} {sw2 : UInt8} (locks : sw2 = 0x82 ∨ sw2 = 0x83) :
      Verdict set base requested hostChallenge (.ok (data ++ [0x69, sw2]))
        (.error (.cardLocked ⟨0x69, sw2⟩))
  | notFound {data : List UInt8} :
      Verdict set base requested hostChallenge (.ok (data ++ [0x6A, 0x88]))
        (.error .referencedDataNotFound)
  | refused {data : List UInt8} {sw1 sw2 : UInt8}
      (other : (sw1, sw2) ∉ [(0x90, 0x00), (0x69, 0x82), (0x69, 0x83), (0x6A, 0x88)]) :
      Verdict set base requested hostChallenge (.ok (data ++ [sw1, sw2]))
        (.error (.cardStatus "INITIALIZE UPDATE" ⟨sw1, sw2⟩))
  | invalidLength {data : List UInt8} (length : data.length ≠ 28) :
      Verdict set base requested hostChallenge (.ok (data ++ [0x90, 0x00]))
        (.error (.invalidLength 28 data.length))
  | unsupported {raw : List UInt8} {reply : InitializeUpdate.Reply} (layout : Layout raw reply)
      (version : reply.version ≠ 0x02) :
      Verdict set base requested hostChallenge (.ok raw)
        (.error (.unsupportedVersion reply.version))
  | mismatch {raw : List UInt8} {reply : InitializeUpdate.Reply} (layout : Layout raw reply)
      (version : reply.version = 0x02) (specific : requested ≠ 0)
      (keyVersion : reply.keyVersion ≠ requested) :
      Verdict set base requested hostChallenge (.ok raw)
        (.error (.keyVersionMismatch requested reply.keyVersion))
  | keyNotFound {raw : List UInt8} {reply : InitializeUpdate.Reply} {usage : KeyUsage}
      (layout : Layout raw reply) (version : reply.version = 0x02)
      (keyVersion : requested = 0 ∨ reply.keyVersion = requested)
      (missing : KeyUsage.all.find? (fun usage => ¬ set.Has (base.keyId usage) reply.keyVersion) =
        some usage) :
      Verdict set base requested hostChallenge (.ok raw)
        (.error (.keyNotFound (base.keyId usage) reply.keyVersion))
  | forged {raw : List UInt8} {reply : InitializeUpdate.Reply} {keys : SessionKeys}
      (layout : Layout raw reply) (suits : Suits set base requested reply keys)
      (cryptogram : reply.cardCryptogram ≠
        Cryptogram.card keys.enc reply.sequenceCounter reply.cardChallenge hostChallenge) :
      Verdict set base requested hostChallenge (.ok raw)
        (.error (.authenticationFailed "invalid card cryptogram"))
  | accepted {raw : List UInt8} {reply : InitializeUpdate.Reply} {keys : SessionKeys}
      (layout : Layout raw reply) (suits : Suits set base requested reply keys)
      (cryptogram : reply.cardCryptogram =
        Cryptogram.card keys.enc reply.sequenceCounter reply.cardChallenge hostChallenge) :
      Verdict set base requested hostChallenge (.ok raw) (.ok ⟨hostChallenge, reply, keys⟩)

theorem judge_layout {fields : InitializeUpdate.Reply} (h : Layout raw fields) :
    judge set base requested hostChallenge (.ok raw) =
      accept set base requested hostChallenge fields := by
  rw [judge, acceptBytes,
    InitializeUpdate.Reply.ofBytes_eq_ok_iff.mpr (InitializeUpdate.layout_iff.mp h)]
  rfl

theorem judge_append {data : List UInt8} {sw1 sw2 : UInt8} :
    judge set base requested hostChallenge (.ok (data ++ [sw1, sw2])) =
      InitializeUpdate.Reply.ofResponse ⟨data, sw1, sw2⟩ >>=
        accept set base requested hostChallenge := by
  have hresponse : Response.ofBytes (data ++ [sw1, sw2]) = .ok ⟨data, sw1, sw2⟩ :=
    Response.ofBytes_eq_ok_iff.mpr rfl
  rw [judge, acceptBytes, InitializeUpdate.Reply.ofBytes, hresponse]

theorem ofResponse_of_length_ne {data : List UInt8} (h : data.length ≠ 28) :
    InitializeUpdate.Reply.ofResponse ⟨data, 0x90, 0x00⟩ = .error (.invalidLength 28 data.length) := by
  have hstatus : (⟨data, 0x90, 0x00⟩ : Response).status = .success := rfl
  rw [InitializeUpdate.Reply.ofResponse, if_pos hstatus, InitializeUpdate.Reply.ofPayload,
    Octets.expect, Octets.ofBytes?, dif_neg h]
  rfl

theorem ofResponse_of_other {data : List UInt8} {sw1 sw2 : UInt8}
    (h : (sw1, sw2) ∉ [(0x90, 0x00), (0x69, 0x82), (0x69, 0x83), (0x6A, 0x88)]) :
    InitializeUpdate.Reply.ofResponse ⟨data, sw1, sw2⟩ =
      .error (.cardStatus "INITIALIZE UPDATE" ⟨sw1, sw2⟩) := by
  simp only [List.mem_cons, Prod.mk.injEq, List.not_mem_nil, or_false, not_or] at h
  obtain ⟨hsuccess, hsecurity, hblocked, hnotFound⟩ := h
  simp only [InitializeUpdate.Reply.ofResponse, StatusWord.success, StatusWord.securityNotSatisfied,
    StatusWord.authenticationBlocked, StatusWord.referencedDataNotFound, StatusWord.mk.injEq,
    hsuccess, hsecurity, hblocked, hnotFound, or_self, if_false]

/-- A case of the verdict is what the answer comes to. -/
theorem judge_of_verdict (h : Verdict set base requested hostChallenge reply result) :
    judge set base requested hostChallenge reply = result := by
  cases h with
  | transport cause => rfl
  | incomplete short =>
    rw [judge, acceptBytes, InitializeUpdate.Reply.ofBytes, Response.ofBytes_of_length_lt short]
    rfl
  | locked locks =>
    rw [judge_append]
    obtain rfl | rfl := locks <;> rfl
  | notFound =>
    rw [judge_append]
    rfl
  | refused other =>
    rw [judge_append, ofResponse_of_other other]
    rfl
  | invalidLength length =>
    rw [judge_append, ofResponse_of_length_ne length]
    rfl
  | unsupported layout version =>
    rw [judge_layout layout]
    exact if_pos version
  | mismatch layout version specific keyVersion =>
    rw [judge_layout layout]
    exact (if_neg (not_not_intro version)).trans (if_pos ⟨specific, keyVersion⟩)
  | keyNotFound layout version keyVersion missing =>
    rw [judge_layout layout]
    refine (if_neg (not_not_intro version)).trans ((if_neg ?_).trans ?_)
    · exact fun h => keyVersion.elim h.1 h.2
    · rw [SessionKeys.derive_of_missing missing]
      rfl
  | forged layout suits cryptogram =>
    rw [judge_layout layout, accept_of_suits suits, if_neg cryptogram.symm]
    rfl
  | accepted layout suits cryptogram =>
    rw [judge_layout layout, accept_of_suits suits, if_pos cryptogram.symm]

/-- The fields of an answer decide how it is judged. -/
theorem exists_verdict_of_layout {fields : InitializeUpdate.Reply} (h : Layout raw fields) :
    ∃ result, Verdict set base requested hostChallenge (.ok raw) result := by
  by_cases hversion : fields.version = 0x02
  case neg => exact ⟨_, .unsupported h hversion⟩
  by_cases hkey : requested = 0 ∨ fields.keyVersion = requested
  case neg =>
    obtain ⟨hspecific, hkeyVersion⟩ := not_or.mp hkey
    exact ⟨_, .mismatch h hversion hspecific hkeyVersion⟩
  cases hmissing : KeyUsage.all.find? fun usage =>
      ¬ set.Has (base.keyId usage) fields.keyVersion with
  | some usage => exact ⟨_, .keyNotFound h hversion hkey hmissing⟩
  | none =>
    have hhas := KeyUsage.find?_all_eq_none_iff.mp hmissing
    obtain ⟨keys, hkeys⟩ : ∃ keys, SessionKeys.derive set base fields.keyVersion
        fields.sequenceCounter = .ok keys := SessionKeys.exists_derive_iff.mpr hhas
    have hsuits : Suits set base requested fields keys := ⟨hversion, hkey, hkeys⟩
    exact (Decidable.em _).elim (fun hcard => ⟨_, .accepted h hsuits hcard⟩)
      fun hcard => ⟨_, .forged h hsuits hcard⟩

theorem exists_verdict (reply : Reply) :
    ∃ result, Verdict set base requested hostChallenge reply result := by
  match reply with
  | .error cause => exact ⟨_, .transport cause⟩
  | .ok raw =>
    by_cases hshort : raw.length < 2
    · exact ⟨_, .incomplete hshort⟩
    obtain ⟨⟨data, sw1, sw2⟩, rfl⟩ := Response.exists_toBytes_eq (Nat.le_of_not_lt hshort)
    by_cases hother : (sw1, sw2) ∉ [(0x90, 0x00), (0x69, 0x82), (0x69, 0x83), (0x6A, 0x88)]
    · exact ⟨_, .refused hother⟩
    simp only [List.mem_cons, Prod.mk.injEq, List.not_mem_nil, or_false, not_not] at hother
    obtain ⟨rfl, rfl⟩ | ⟨rfl, rfl⟩ | ⟨rfl, rfl⟩ | ⟨rfl, rfl⟩ := hother
    · by_cases hlength : data.length = 28
      · obtain ⟨fields, hlayout⟩ : ∃ fields, Layout (data ++ [0x90, 0x00]) fields :=
          InitializeUpdate.exists_layout_iff.mpr
            ⟨by simp [hlength], by rw [← hlength, List.drop_left]⟩
        exact exists_verdict_of_layout hlayout
      · exact ⟨_, .invalidLength hlength⟩
    · exact ⟨_, .locked (.inl rfl)⟩
    · exact ⟨_, .locked (.inr rfl)⟩
    · exact ⟨_, .notFound⟩

theorem verdict_iff :
    Verdict set base requested hostChallenge reply result ↔
      result = judge set base requested hostChallenge reply := by
  refine ⟨fun h => (judge_of_verdict h).symm, ?_⟩
  rintro rfl
  obtain ⟨result, h⟩ : ∃ result, Verdict set base requested hostChallenge reply result :=
    exists_verdict reply
  rwa [judge_of_verdict h]

/-- The answers without fault, byte for byte. -/
structure Acceptable (set : KeySet) (base : BaseKeys) (requested : UInt8) (hostChallenge : Block)
    (raw : List UInt8) : Prop where
  length : raw.length = 30
  status : raw.drop 28 = [0x90, 0x00]
  version : raw[11]? = some 0x02
  keyVersion : requested = 0 ∨ raw[10]? = some requested
  answers : set.version = 0 ∨ raw[10]? = some set.version
  keyIds : ∀ usage, base.keyId usage = 1 ∨ base.keyId usage = 2 ∨ base.keyId usage = 3
  cryptogram : ∃ (key : TripleKey) (counter : SequenceCounter) (challenge : CardChallenge),
    set.key? (base.keyId .enc) = some key ∧ counter.toList = (raw.drop 12).take 2 ∧
    challenge.toList = (raw.drop 14).take 6 ∧
    (raw.drop 20).take 8 =
      (Cryptogram.card (.derive key .enc counter) counter challenge hostChallenge).toBytes

theorem Verdict.acceptable {h : Handshake}
    (hv : Verdict set base requested hostChallenge (.ok raw) (.ok h)) :
    Acceptable set base requested hostChallenge raw := by
  cases hv with
  | @accepted _ fields keys layout suits cryptogram =>
    have hhas := SessionKeys.exists_derive_iff.mp ⟨keys, suits.derived⟩
    obtain ⟨key, hlookup, hkey⟩ := SessionKeys.derive_eq_ok_iff.mp suits.derived .enc
    have henc : keys.enc = .derive key .enc fields.sequenceCounter := hkey
    refine ⟨layout.length, layout.status, ?_, ?_, ?_, fun usage => (hhas usage).id, key,
      fields.sequenceCounter, fields.cardChallenge, (KeySet.lookup_eq_ok_iff.mp hlookup).2,
      layout.sequenceCounter.symm, layout.cardChallenge.symm, ?_⟩
    · rw [layout.version, suits.version]
      rfl
    · rw [layout.keyVersion, Option.some.injEq]
      exact suits.keyVersion
    · rw [layout.keyVersion, Option.some.injEq, eq_comm (b := set.version)]
      exact (hhas .enc).version
    · rw [layout.cardCryptogram, cryptogram, henc]

theorem Acceptable.exists_verdict (ha : Acceptable set base requested hostChallenge raw) :
    ∃ h, Verdict set base requested hostChallenge (.ok raw) (.ok h) := by
  obtain ⟨fields, layout⟩ := InitializeUpdate.exists_layout_iff.mpr ⟨ha.length, ha.status⟩
  have hversion := ha.version
  have hkeyVersion := ha.keyVersion
  have hanswers := ha.answers
  rw [layout.version, Option.some.injEq] at hversion
  rw [layout.keyVersion, Option.some.injEq] at hkeyVersion hanswers
  have hhas (usage : KeyUsage) : set.Has (base.keyId usage) fields.keyVersion :=
    ⟨hanswers.imp_right Eq.symm, ha.keyIds usage⟩
  obtain ⟨keys, hkeys⟩ : ∃ keys, SessionKeys.derive set base fields.keyVersion
      fields.sequenceCounter = .ok keys := SessionKeys.exists_derive_iff.mpr hhas
  obtain ⟨key, counter, challenge, hkey, hcounter, hchallenge, hcryptogram⟩ := ha.cryptogram
  obtain rfl : counter = fields.sequenceCounter :=
    Octets.ext (hcounter.trans layout.sequenceCounter)
  obtain rfl : challenge = fields.cardChallenge := Octets.ext (hchallenge.trans layout.cardChallenge)
  obtain ⟨found, hlookup, hderived⟩ := SessionKeys.derive_eq_ok_iff.mp hkeys .enc
  obtain rfl : key = found :=
    Option.some.inj (hkey.symm.trans (KeySet.lookup_eq_ok_iff.mp hlookup).2)
  have henc : keys.enc = .derive key .enc fields.sequenceCounter := hderived
  rw [layout.cardCryptogram, Block.toBytes_inj, ← henc] at hcryptogram
  exact ⟨_, .accepted layout ⟨hversion, hkeyVersion, hkeys⟩ hcryptogram⟩

end Handshake

namespace Stepwise.Fields

open Dialogue Session

/-- The verdict on an answer that is given with the keys of a set and the configuration of a
session. -/
def Judges (f : Fields) (set : KeySet) : UInt8 → Block → Reply → Except Error Handshake → Prop :=
  Handshake.Verdict set (f.config.baseKeys f.options)

/-- The state after INITIALIZE UPDATE.  If there was a channel before, there is none now. -/
def started (f : Fields) : Except Error Handshake → Fields
  | .ok _ => { f with channel := none, phase := .challenged }
  | .error _ => { f with channel := none, phase := .failed }

variable {f next : Fields} {set : KeySet} {requested : UInt8} {hostChallenge : Block}
  {events : List Event}

theorem trace_initializeUpdateWith_iff {outcome : Except Error Handshake} :
    Trace (f.initializeUpdateWith set requested hostChallenge) events (outcome, next) ↔
      ∃ reply, events = [.sent (InitializeUpdate.bytes requested hostChallenge) reply] ∧
        f.Judges set requested hostChallenge reply outcome ∧ next = f.started outcome := by
  have heq : f.initializeUpdateWith set requested hostChallenge =
      send (InitializeUpdate.bytes requested hostChallenge) fun reply =>
        let outcome :=
          Handshake.judge set (f.config.baseKeys f.options) requested hostChallenge reply
        done (outcome, f.started outcome) := by
    rw [initializeUpdateWith, start_eq, Handshake.start_eq]
    simp only [bind_eq, Dialogue.bind]
    congr 1
    funext reply
    cases Handshake.judge set (f.config.baseKeys f.options) requested hostChallenge reply <;> rfl
  rw [heq, trace_send_done_iff]
  simp only [Prod.mk.injEq, Judges, Handshake.verdict_iff]
  constructor
  · rintro ⟨reply, rfl, rfl, rfl⟩
    exact ⟨reply, rfl, rfl, rfl⟩
  · rintro ⟨reply, rfl, rfl, rfl⟩
    exact ⟨reply, rfl, rfl, rfl⟩

theorem trace_initializeUpdate_iff {chosen : Option Block} {result : Except Error Answer} :
    Trace (f.perform set (.initializeUpdate requested chosen)) events (result, next) ↔
      ∃ hostChallenge drawn reply outcome, Draws chosen hostChallenge drawn ∧
        events = drawn ++ [.sent (InitializeUpdate.bytes requested hostChallenge) reply] ∧
        f.Judges set requested hostChallenge reply outcome ∧
        result = outcome.map .handshake ∧ next = f.started outcome := by
  have hanswer {d : Dialogue (Except Error Handshake × Fields)} :
      Trace (answerWith .handshake <$> d) events (result, next) ↔
        ∃ outcome, Trace d events (outcome, next) ∧ result = outcome.map .handshake :=
    trace_map_outcome_iff
  cases chosen with
  | none =>
    have hdraw : f.initializeUpdate set requested = draw (f.initializeUpdateWith set requested) := rfl
    simp only [perform, hanswer, hdraw, trace_draw_iff, trace_initializeUpdateWith_iff]
    constructor
    · rintro ⟨outcome, ⟨hostChallenge, _, rfl, reply, rfl, hjudges, rfl⟩, rfl⟩
      exact ⟨hostChallenge, _, reply, outcome, .random hostChallenge, rfl, hjudges, rfl, rfl⟩
    · rintro ⟨hostChallenge, _, reply, outcome, ⟨⟩, rfl, hjudges, rfl, rfl⟩
      exact ⟨outcome, ⟨hostChallenge, _, rfl, reply, rfl, hjudges, rfl⟩, rfl⟩
  | some hostChallenge =>
    simp only [perform, hanswer, trace_initializeUpdateWith_iff]
    constructor
    · rintro ⟨outcome, ⟨reply, rfl, hjudges, rfl⟩, rfl⟩
      exact ⟨hostChallenge, _, reply, outcome, .chosen hostChallenge, rfl, hjudges, rfl, rfl⟩
    · rintro ⟨_, _, reply, outcome, ⟨⟩, rfl, hjudges, rfl, rfl⟩
      exact ⟨outcome, ⟨reply, rfl, hjudges, rfl⟩, rfl⟩

/-- Whatever state it is in, a session that starts a handshake sends INITIALIZE UPDATE once, and the
answer decides all the rest.  Of the verdicts exactly one applies to each answer, and the handshake
goes on for those that are acceptable and no others; it then holds the fields of the answer and the
keys that these call for. -/
theorem initializeUpdate_verdict (f : Fields) (set : KeySet) (requested : UInt8) :
    (∀ chosen events result next,
      Trace (f.perform set (.initializeUpdate requested chosen)) events (result, next) ↔
        ∃ hostChallenge drawn reply outcome, Draws chosen hostChallenge drawn ∧
          events = drawn ++ [.sent (InitializeUpdate.bytes requested hostChallenge) reply] ∧
          f.Judges set requested hostChallenge reply outcome ∧
          result = outcome.map .handshake ∧ next = f.started outcome) ∧
    ∀ hostChallenge,
      (∀ reply, ∃ outcome, ∀ other,
        f.Judges set requested hostChallenge reply other ↔ other = outcome) ∧
      ∀ raw,
        ((∃ h, f.Judges set requested hostChallenge (.ok raw) (.ok h)) ↔
          Handshake.Acceptable set (f.config.baseKeys f.options) requested hostChallenge raw) ∧
        ∀ h, f.Judges set requested hostChallenge (.ok raw) (.ok h) →
          h.hostChallenge = hostChallenge ∧ InitializeUpdate.Layout raw h.reply ∧
            SessionKeys.derive set (f.config.baseKeys f.options) h.reply.keyVersion
              h.reply.sequenceCounter = .ok h.keys := by
  refine ⟨fun chosen events result next => trace_initializeUpdate_iff, fun hostChallenge =>
    ⟨fun reply => ⟨_, fun other => Handshake.verdict_iff⟩, fun raw => ⟨⟨?_, ?_⟩, fun h hv => ?_⟩⟩⟩
  · rintro ⟨h, hv⟩
    exact Handshake.Verdict.acceptable hv
  · exact fun ha => ha.exists_verdict
  · cases hv with
    | accepted layout suits => exact ⟨rfl, layout, suits.derived⟩

end Stepwise.Fields

end CardChannel
