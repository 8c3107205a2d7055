import Mathlib.Data.List.Forall2
import CardChannel.Proofs.Channel.Limits
import CardChannel.Proofs.Channel.Resumption
import CardChannel.Proofs.Tool.Invocation

/-! A recorded session, recomputed one call at a time.  A call of the tool opens a channel, uses it
for one exchange and forgets it; all that is handed on is the chaining value that it prints.  That
is enough: the calls of `wrap`, each given the last ICV, show the commands of the session, and the
calls of `unwrap`, each given the last R-ICV, show its verdicts, failures included.  This and the
independence of the two chains that it rests on are `calls_resume_channel`. -/

namespace CardChannel.Tool

open Channel (Turn)

/-- A recorded exchange, with the texts that the tool is given for it. -/
structure Recorded where
  command : Command
  response : Response
  apdu : String
  answer : String
  apdu_read : ∃ bytes, Hex.decode apdu = .ok bytes ∧ Command.ofBytes bytes = .ok command
  answer_read : Hex.decode answer = .ok response.toBytes

def Recorded.exchange (x : Recorded) : Command × Response := (x.command, x.response)

/-- The value in the last line of the outcome, if that line has the label. -/
def Outcome.printed? (label : String) (outcome : Outcome) : Option String :=
  outcome.lines.getLast?.bind fun line =>
    ((label ++ ": ").toList.isPrefixOf? line.toList).map String.ofList

/-- Calls for one job, one for each exchange, each with the chaining value that was printed last. -/
def Setting.series (s : Setting) (job label : String) (words : Recorded → List String) :
    Option String → List Recorded → List Outcome
  | _, [] => []
  | icv, x :: rest =>
    let outcome := answer (s.arguments job icv (words x))
    outcome :: s.series job label words ((outcome.printed? label).or icv) rest

def Setting.wrapAll (s : Setting) : Option String → List Recorded → List Outcome :=
  s.series "wrap" "ICV" fun x => [x.apdu]

def Setting.unwrapAll (s : Setting) : Option String → List Recorded → List Outcome :=
  s.series "unwrap" "R-ICV" fun x => [x.apdu, x.answer]

/-- The tool ends with an error of the channel. -/
def Outcome.failed (error : Error) : Outcome :=
  ⟨1, [], some ("Error: " ++ error.inspect ++ "\n")⟩

/-- The outcome shows what the turn made of the command. -/
inductive ShowsSent (t : Turn) : Outcome → Prop where
  | wrapped {w : Command} {bytes : List UInt8} (sent : t.wrapped = .ok w)
      (encoded : w.toBytes = .ok bytes) :
      ShowsSent t ⟨0, Hex.encodeUpper bytes :: (t.after.icv.map (icvLine "ICV")).toList, none⟩
  | refused {error : Error} (refused : t.wrapped = .error error) : ShowsSent t (.failed error)

/-- The outcome shows what the turn made of the response. -/
inductive ShowsReceived (t : Turn) : Outcome → Prop where
  | accepted {plain : Response} (accepted : t.verdict = .ok plain) :
      ShowsReceived t
        ⟨0, [Hex.encodeUpper plain.payload ++ " " ++ plain.status.text,
          icvLine "R-ICV" t.after.responseIcv], none⟩
  | rejected {error : Error} (rejected : t.verdict = .error error) :
      ShowsReceived t (.failed error)

section Shows

variable {t t' : Turn} {outcome : Outcome}

theorem ShowsSent.congr (hs : ShowsSent t outcome) (h : t.sent = t'.sent) :
    ShowsSent t' outcome := by
  obtain ⟨hwrapped, hicv⟩ := Prod.mk.inj h
  cases hs with
  | wrapped sent encoded =>
    rw [hicv]
    exact .wrapped (hwrapped ▸ sent) encoded
  | refused refused => exact .refused (hwrapped ▸ refused)

theorem ShowsReceived.congr (hs : ShowsReceived t outcome) (h : t.received = t'.received) :
    ShowsReceived t' outcome := by
  obtain ⟨hverdict, hicv⟩ := Prod.mk.inj h
  cases hs with
  | accepted accepted =>
    rw [hicv]
    exact .accepted (hverdict ▸ accepted)
  | rejected rejected => exact .rejected (hverdict ▸ rejected)

end Shows

/-! ### What was printed -/

theorem printed?_icvLine {code : UInt8} {label : String} {front : List String} {icv : Block}
    {complaint : Option String} :
    Outcome.printed? label ⟨code, front ++ [icvLine label icv], complaint⟩ =
      some (Hex.encodeUpper icv.toBytes) := by
  have hline : (label ++ ": ").toList.isPrefixOf? (icvLine label icv).toList =
      some (Hex.encodeUpper icv.toBytes).toList :=
    List.isPrefixOf?_eq_some_iff_append_eq.mpr (by simp only [icvLine, String.toList_append])
  simp only [Outcome.printed?, List.getLast?_concat, Option.bind_some, hline, Option.map_some,
    String.ofList_toList]

/-- A command alone is not a chaining value. -/
theorem printed?_command {code : UInt8} {bytes : List UInt8} {complaint : Option String} :
    Outcome.printed? "ICV" ⟨code, [Hex.encodeUpper bytes], complaint⟩ = none := by
  have hhead := Hex.head?_ne (c := 'I') (Hex.decode_encodeUpper bytes) rfl rfl
  simp only [Outcome.printed?, List.getLast?_singleton, Option.bind_some, Option.map_eq_none_iff]
  cases htext : (Hex.encodeUpper bytes).toList with
  | nil => rfl
  | cons c rest =>
    rw [htext, List.head?_cons, ne_eq, Option.some.injEq] at hhead
    show List.isPrefixOf? ('I' :: _) (c :: rest) = none
    rw [List.isPrefixOf?, if_neg (by simpa using Ne.symm hhead)]

theorem printed?_failed (label : String) (error : Error) :
    (Outcome.failed error).printed? label = none := rfl

/-! ### One call -/

section Call

variable {s : Setting} {icv : Option String} {ch fresh : Channel} {x : Recorded}

theorem wrapCommand_of_le (h : x.command.payload.length ≤ fresh.maxData) :
    wrapCommand fresh x.apdu = .ok (fresh.protect x.command, fresh.advance x.command) := by
  obtain ⟨bytes, hdecode, hcommand⟩ := x.apdu_read
  simp only [wrapCommand, decode, hdecode, hcommand, mapError_ok, bind, Except.bind,
    Channel.wrap_of_le h, pure, Except.pure]

theorem wrapCommand_of_lt (h : fresh.maxData < x.command.payload.length) :
    wrapCommand fresh x.apdu =
      .error (.channel (.dataTooLong x.command.payload.length fresh.maxData)) := by
  obtain ⟨bytes, hdecode, hcommand⟩ := x.apdu_read
  simp only [wrapCommand, decode, hdecode, hcommand, mapError_ok, bind, Except.bind,
    Channel.wrap_of_lt h]
  rfl

/-- A response is checked after the command was wrapped, so that both jobs fail for a long one. -/
theorem answer_of_lt {args : List String} {request : Request} {channel : ChannelRequest}
    (hread : Request.read? args = some request)
    (hjob : request.job = .wrap channel x.apdu ∨ request.job = .unwrap channel x.apdu x.answer)
    (hopen : openChannel request channel = .ok fresh)
    (hlt : fresh.maxData < x.command.payload.length) :
    answer args = .failed (.dataTooLong x.command.payload.length fresh.maxData) := by
  have hwrap := wrapCommand_of_lt hlt
  rcases hjob with hjob | hjob
  · simp only [answer, hread, perform, hjob, hopen, bind, Except.bind, hwrap]
    rfl
  · simp only [answer, hread, perform, hjob, hopen, bind, Except.bind, hwrap]
    rfl

theorem showsSent_answer {args : List String} {request : Request} {channel : ChannelRequest}
    (hread : Request.read? args = some request) (hjob : request.job = .wrap channel x.apdu)
    (hopen : openChannel request channel = .ok fresh) (hfits : fresh.Fits) :
    ShowsSent (fresh.turn x.command x.response) (answer args) := by
  by_cases hle : x.command.payload.length ≤ fresh.maxData
  · obtain ⟨bytes, hbytes⟩ := hfits.exists_toBytes hle
    have hanswer : answer args = ⟨0, Hex.encodeUpper bytes ::
        ((fresh.advance x.command).icv.map (icvLine "ICV")).toList, none⟩ := by
      simp only [answer, hread, perform, hjob, hopen, bind, Except.bind, wrapCommand_of_le hle,
        hbytes, mapError_ok, pure, Except.pure]
    rw [hanswer, Channel.turn_of_le hle, ← Channel.icv_unwrap _ x.response]
    exact .wrapped rfl hbytes
  · have hlt : fresh.maxData < x.command.payload.length := Nat.lt_of_not_le hle
    rw [answer_of_lt hread (.inl hjob) hopen hlt, Channel.turn_of_lt hlt]
    exact .refused rfl

theorem showsReceived_answer {args : List String} {request : Request} {channel : ChannelRequest}
    (hread : Request.read? args = some request)
    (hjob : request.job = .unwrap channel x.apdu x.answer)
    (hopen : openChannel request channel = .ok fresh) :
    ShowsReceived (fresh.turn x.command x.response) (answer args) := by
  by_cases hle : x.command.payload.length ≤ fresh.maxData
  · have hresponse : Response.ofBytes x.response.toBytes = .ok x.response :=
      Response.ofBytes_toBytes _
    rw [Channel.turn_of_le hle]
    cases hunwrap : (fresh.advance x.command).unwrap x.response with
    | mk verdict after =>
      cases verdict with
      | ok plain =>
        have hanswer : answer args = ⟨0, [Hex.encodeUpper plain.payload ++ " " ++
            plain.status.text, icvLine "R-ICV" after.responseIcv], none⟩ := by
          simp only [answer, hread, perform, hjob, hopen, bind, Except.bind, wrapCommand_of_le hle,
            decode, x.answer_read, hresponse, mapError_ok, hunwrap, pure, Except.pure]
        rw [hanswer]
        exact .accepted rfl
      | error error =>
        have hanswer : answer args = .failed error := by
          simp only [answer, hread, perform, hjob, hopen, bind, Except.bind, wrapCommand_of_le hle,
            decode, x.answer_read, hresponse, mapError_ok, hunwrap]
          rfl
        rw [hanswer]
        exact .rejected rfl
  · have hlt : fresh.maxData < x.command.payload.length := Nat.lt_of_not_le hle
    rw [answer_of_lt hread (.inr hjob) hopen hlt, Channel.turn_of_lt hlt]
    exact .rejected rfl

/-- The value for the next command: the one that was printed, or else the one before. -/
theorem ShowsSent.reads_after {c : Command} {r : Response} {outcome : Outcome}
    (h : ShowsSent (ch.turn c r) outcome) (hicv : optional? block? icv = some ch.icv) :
    optional? block? ((outcome.printed? "ICV").or icv) = some (ch.turn c r).after.icv := by
  cases h with
  | @wrapped _ bytes =>
    cases hafter : (ch.turn c r).after.icv with
    | none =>
      rw [Option.map_none, Option.toList_none, printed?_command, Option.none_or, hicv,
        Channel.icv_of_turn hafter]
    | some mac =>
      rw [Option.map_some, Option.toList_some, ← List.singleton_append, printed?_icvLine,
        Option.some_or, optional?, block?_encodeUpper, Option.map_some]
  | refused refused =>
    rw [printed?_failed, Option.none_or, hicv, Channel.after_turn_of_error refused]

/-- The value for the next response. -/
theorem ShowsReceived.reads_after {c : Command} {r : Response} {outcome : Outcome}
    {seed : Option Block} (h : ShowsReceived (ch.turn c r) outcome)
    (hicv : optional? block? icv = some seed) (hseed : seed.getD .zero = ch.responseIcv) :
    ∃ next, optional? block? ((outcome.printed? "R-ICV").or icv) = some next ∧
      next.getD .zero = (ch.turn c r).after.responseIcv := by
  cases h with
  | accepted =>
    refine ⟨some (ch.turn c r).after.responseIcv, ?_, rfl⟩
    rw [← List.singleton_append, printed?_icvLine, Option.some_or, optional?, block?_encodeUpper,
      Option.map_some]
  | rejected rejected =>
    rw [printed?_failed, Option.none_or, Channel.responseIcv_turn_of_error rejected]
    exact ⟨seed, hicv, hseed⟩

end Call

/-! ### A series of calls -/

section Series

variable {s : Setting} {keys : SessionKeys} {options : Options} {level : SecurityLevel}
  {seed : Option Block} {first : Channel} {icv : Option String}

/-- What one call shows of one turn, all calls show of all turns. -/
theorem series_shows {job label : String} {words : Recorded → List String}
    {Shows : Turn → Outcome → Prop} (Reads : Channel → Option String → Prop)
    (step : ∀ {ch icv} (x : Recorded), Channel.Continues first ch → Reads ch icv →
      let outcome := answer (s.arguments job icv (words x))
      Shows (ch.turn x.command x.response) outcome ∧
        Reads (ch.turn x.command x.response).after ((outcome.printed? label).or icv))
    {ch : Channel} (hcontinues : Channel.Continues first ch) (hreads : Reads ch icv)
    (xs : List Recorded) :
    List.Forall₂ Shows (ch.turns (xs.map Recorded.exchange)) (s.series job label words icv xs) := by
  induction xs generalizing ch icv with
  | nil => exact .nil
  | cons x rest ih =>
    obtain ⟨hshows, hnext⟩ := step x hcontinues hreads
    exact .cons hshows (ih (hcontinues.trans (ch.continues_turn x.command x.response)) hnext)

variable (hdescribes : s.Describes keys options level)
  (hcreate : Channel.create keys options level seed maxShortData = .ok first)

include hdescribes hcreate

theorem wrapAll_shows (hicv : optional? block? icv = some seed) (xs : List Recorded) :
    List.Forall₂ ShowsSent (first.turns (xs.map Recorded.exchange)) (s.wrapAll icv xs) := by
  have hfirst := Channel.fresh_of_create hcreate
  refine series_shows (fun ch icv => optional? block? icv = some ch.icv)
    (fun {ch icv} x hcontinues hreads => ?_) (.refl first)
    (hfirst.icv.symm ▸ hicv) xs
  -- The call opens a channel from the value it was given, where the chain of commands stands.
  obtain ⟨counter, channel, hasks, hopen⟩ := hdescribes.exists_asks hreads
  obtain ⟨fresh, hfresh, hcommon, hstart, -⟩ := Channel.exists_fresh hcreate ch.icv
  obtain ⟨bytes, hapdu, -⟩ := x.apdu_read
  have hshown := showsSent_answer (hasks.read?_wrap (plain_of_decode hapdu)) rfl
    ((hopen _).trans (mapError_eq_ok_iff.mpr hfresh)) (Channel.fits_of_create hfresh)
  have hshows := hshown.congr (Channel.sent_turn_congr (hcommon.trans hcontinues) hstart
    x.command x.response x.response)
  exact ⟨hshows, hshows.reads_after hreads⟩

theorem unwrapAll_shows (hicv : optional? block? icv = some seed) (xs : List Recorded) :
    List.Forall₂ ShowsReceived (first.turns (xs.map Recorded.exchange)) (s.unwrapAll icv xs) := by
  have hfirst := Channel.fresh_of_create hcreate
  refine series_shows (fun ch icv => ∃ start, optional? block? icv = some start ∧
      start.getD .zero = ch.responseIcv)
    (fun {ch icv} x hcontinues hreads => ?_) (.refl first)
    ⟨seed, hicv, hfirst.responseIcv.symm⟩ xs
  -- Before anything was printed there may be no value at all, and then the chain is at zero.
  obtain ⟨start, hstart, hchain⟩ := hreads
  obtain ⟨counter, channel, hasks, hopen⟩ := hdescribes.exists_asks hstart
  obtain ⟨fresh, hfresh, hcommon, -, hseed⟩ := Channel.exists_fresh hcreate start
  obtain ⟨bytes, hapdu, -⟩ := x.apdu_read
  have hshown := showsReceived_answer
    (hasks.read?_unwrap (plain_of_decode hapdu) (plain_of_decode x.answer_read)) rfl
    ((hopen _).trans (mapError_eq_ok_iff.mpr hfresh))
  have hshows := hshown.congr (Channel.received_turn_congr (hcommon.trans hcontinues)
    (hseed.trans hchain) x.command x.response)
  exact ⟨hshows, hshows.reads_after hstart hchain⟩

end Series

/-- The two chains of a channel are independent, and a channel can be resumed from the values that
they have reached.  For exchanges one after the other, each command is wrapped as on a new channel
that starts from the ICV before it, and each response is judged as on a new channel that starts from
the R-ICV before it.  So the tool, given the value it printed last, shows the same commands and the
same verdicts call by call.  Whatever the responses are, and wherever the chain of responses stands,
the commands come out the same; and the verdicts do so wherever the chain of commands stands. -/
theorem calls_resume_channel (keys : SessionKeys) (options : Options) {level : SecurityLevel}
    (hlevel : level.validate = .ok ()) (seed : Option Block) :
    ∃ first, Channel.create keys options level seed 255 = .ok first ∧
      (∀ xs, ∀ t ∈ first.turns xs, t.Resumes keys options level 255) ∧
      (∀ (s : Setting) icv xs, s.Describes keys options level → optional? block? icv = some seed →
        List.Forall₂ ShowsSent (first.turns (xs.map Recorded.exchange)) (s.wrapAll icv xs) ∧
        List.Forall₂ ShowsReceived (first.turns (xs.map Recorded.exchange)) (s.unwrapAll icv xs)) ∧
      (∀ (ch : Channel) responseIcv lastCommand xs ys, xs.map Prod.fst = ys.map Prod.fst →
        (ch.turns xs).map Turn.sent =
          (Channel.turns { ch with responseIcv, lastCommand } ys).map Turn.sent) ∧
      ∀ (ch : Channel) icv xs,
        (ch.turns xs).map Turn.received = (Channel.turns { ch with icv } xs).map Turn.received := by
  obtain ⟨first, hcreate⟩ : ∃ first, Channel.create keys options level seed 255 = .ok first :=
    Channel.exists_create_iff.mpr
      ⟨hlevel, Nat.le_refl 255, Nat.le_trans level.overhead_le (by decide)⟩
  refine ⟨first, hcreate, Channel.resumes_turns hcreate, fun s icv xs hdescribes hicv => ⟨?_, ?_⟩,
    fun ch responseIcv lastCommand xs ys hcommands => ?_, fun ch icv xs => ?_⟩
  · exact wrapAll_shows hdescribes hcreate hicv xs
  · exact unwrapAll_shows hdescribes hcreate hicv xs
  · have hsame : Channel.Continues ch { ch with responseIcv, lastCommand } := ⟨rfl, rfl, rfl, rfl⟩
    exact Channel.sent_turns_congr hsame rfl hcommands
  · have hsame : Channel.Continues ch { ch with icv } := ⟨rfl, rfl, rfl, rfl⟩
    exact Channel.received_turns_congr hsame rfl xs

/-- An exchange of these bytes, with its texts in upper case. -/
def Recorded.ofBytes {bytes : List UInt8} {c : Command} (h : Command.ofBytes bytes = .ok c)
    (r : Response) : Recorded :=
  ⟨c, r, Hex.encodeUpper bytes, Hex.encodeUpper r.toBytes,
    ⟨bytes, Hex.decode_encodeUpper bytes, h⟩, Hex.decode_encodeUpper _⟩

/-- The default base key, with the counter of a recorded session, and all protections. -/
def sampleSetting : Setting :=
  ⟨none, Hex.encodeUpper [0x00, 0x04], some (Hex.encodeUpper [0x13]), none⟩

/-- Two commands, one with a response too short for a MAC and one with eight bytes in its place. -/
def sampleExchanges : List Recorded :=
  [.ofBytes (show Command.ofBytes [0x80, 0xF2, 0x40, 0x00, 0x02, 0x4F, 0x00] =
      .ok ⟨0x80, 0xF2, 0x40, 0x00, some [0x4F, 0x00], none⟩ from rfl) (.success []),
    .ofBytes (show Command.ofBytes [0x80, 0xCA, 0x00, 0x66, 0x00] =
      .ok ⟨0x80, 0xCA, 0x00, 0x66, none, some 0x00⟩ from rfl) (.success (List.replicate 8 0x00))]

/-- The tool takes over from the first command of a channel without a seed. -/
theorem calls_resume_channel_sample :
    ∃ keys first, sampleSetting.Describes keys .default Channel.sampleLevel ∧
      Channel.create keys .default Channel.sampleLevel none 255 = .ok first ∧
      (∀ t ∈ first.turns (sampleExchanges.map Recorded.exchange),
        t.Resumes keys .default Channel.sampleLevel 255) ∧
      List.Forall₂ ShowsSent (first.turns (sampleExchanges.map Recorded.exchange))
        (sampleSetting.wrapAll none sampleExchanges) ∧
      List.Forall₂ ShowsReceived (first.turns (sampleExchanges.map Recorded.exchange))
        (sampleSetting.unwrapAll none sampleExchanges) := by
  let key (usage : KeyUsage) : SessionKey := .derive KeySet.defaultKey usage ⟨[0x00, 0x04], rfl⟩
  have hcounter : octets? 2 (Hex.encodeUpper [0x00, 0x04]) = some ⟨[0x00, 0x04], rfl⟩ := by
    rw [octets?, Hex.decode_encodeUpper]
    rfl
  have hlevel : optional? byte? (some (Hex.encodeUpper [0x13])) = some (some 0x13) := by
    rw [optional?, byte?, octets?, Hex.decode_encodeUpper]
    rfl
  have hdescribes : sampleSetting.Describes ⟨key .enc, key .mac, key .dek, key .rMac⟩ .default
      Channel.sampleLevel :=
    ⟨⟨_, hcounter, rfl⟩, ⟨none, rfl, rfl⟩, ⟨some 0x13, hlevel, rfl⟩⟩
  obtain ⟨first, hcreate, hresumes, htool, -⟩ := calls_resume_channel _ .default
    (show Channel.sampleLevel.validate = .ok () from rfl) none
  obtain ⟨hsent, hreceived⟩ := htool sampleSetting none sampleExchanges hdescribes rfl
  exact ⟨_, first, hdescribes, hcreate, hresumes _, hsent, hreceived⟩

end CardChannel.Tool
