import CardChannel.Proofs.Recovery
import CardChannel.Proofs.Channel.ResponseReplay

/-! What the MAC of a response speaks for.  It is taken over the header and the data of the command,
the data of the response and the status, one after the other.  Data are led by their number, but the
number is left out where a command has none, and the fifth byte then belongs to the response.  All
the same no two exchanges are written alike, as long as every number fits its byte, and padding
keeps them apart: `exchangeBytes_inj`, `responseMacInput_inj`.  The commands that a channel accepts
are never too long for that: `responseMacInput_binds`. -/

namespace CardChannel.Channel

/-- Bytes led by their number, which counts modulo 256. -/
def counted (data : List UInt8) : List UInt8 := UInt8.ofNat data.length :: data

/-- What the MAC of a response covers after the header of the command. -/
def exchangeBytes (payload data : List UInt8) (status : StatusWord) : List UInt8 :=
  (if payload.isEmpty then [] else counted payload) ++ (counted data ++ status.toBytes)

variable {c c' : Command} {r r' : Response} {status status' : StatusWord}
  {payload payload' data data' rest rest' : List UInt8}

theorem responseMacInput_remembered (c : Command) (data : List UInt8) (status : StatusWord) :
    responseMacInput (remembered c) data status =
      { c with cla := plainClass c.cla }.header ++ exchangeBytes c.payload data status := by
  simp only [responseMacInput, remembered, exchangeBytes, counted, List.append_assoc]

theorem exchangeBytes_nil (data : List UInt8) (status : StatusWord) :
    exchangeBytes [] data status = counted data ++ status.toBytes := rfl

theorem exchangeBytes_of_ne_nil (h : payload ≠ []) (data : List UInt8) (status : StatusWord) :
    exchangeBytes payload data status = counted payload ++ (counted data ++ status.toBytes) := by
  rw [exchangeBytes, if_neg (by simpa using h)]

/-! ### Numbers tell where data end -/

theorem lengthByte_inj {m n : Nat} (hm : m ≤ 255) (hn : n ≤ 255) :
    UInt8.ofNat m = UInt8.ofNat n ↔ m = n := by
  refine ⟨fun h => ?_, congrArg UInt8.ofNat⟩
  rw [← UInt8.toNat_ofNat_of_lt' (Nat.lt_succ_of_le hm), h,
    UInt8.toNat_ofNat_of_lt' (Nat.lt_succ_of_le hn)]

theorem counted_append_inj (h : data.length ≤ 255) (h' : data'.length ≤ 255)
    (heq : counted data ++ rest = counted data' ++ rest') : data = data' ∧ rest = rest' := by
  obtain ⟨hlength, happend⟩ := List.cons.inj heq
  exact List.append_inj happend ((lengthByte_inj h h').mp hlength)

theorem answer_inj (h : data.length ≤ 255) (h' : data'.length ≤ 255)
    (heq : counted data ++ status.toBytes = counted data' ++ status'.toBytes) :
    data = data' ∧ status = status' := by
  obtain ⟨hdata, hstatus⟩ := counted_append_inj h h' heq
  exact ⟨hdata, StatusWord.toBytes_inj.mp hstatus⟩

/-- An answer alone is never written like data before an answer: they would have to be the data of
the first answer, and a status is shorter than an answer. -/
theorem answer_ne (h : data.length ≤ 255) (hp : payload.length ≤ 255) :
    counted data ++ status.toBytes ≠ counted payload ++ (counted data' ++ status'.toBytes) := by
  intro heq
  obtain ⟨-, hstatus⟩ := counted_append_inj h hp heq
  have hlength := congrArg List.length hstatus
  rw [List.length_append, counted, List.length_cons, StatusWord.length_toBytes,
    StatusWord.length_toBytes] at hlength
  omega

theorem exchangeBytes_inj (hp : payload.length ≤ 255) (hp' : payload'.length ≤ 255)
    (h : data.length ≤ 255) (h' : data'.length ≤ 255)
    (heq : exchangeBytes payload data status = exchangeBytes payload' data' status') :
    payload = payload' ∧ data = data' ∧ status = status' := by
  by_cases hempty : payload = [] <;> by_cases hempty' : payload' = []
  · subst hempty hempty'
    exact ⟨rfl, answer_inj h h' heq⟩
  · rw [hempty, exchangeBytes_nil, exchangeBytes_of_ne_nil hempty'] at heq
    exact absurd heq (answer_ne h hp')
  · rw [hempty', exchangeBytes_nil, exchangeBytes_of_ne_nil hempty] at heq
    exact absurd heq.symm (answer_ne h' hp)
  · rw [exchangeBytes_of_ne_nil hempty, exchangeBytes_of_ne_nil hempty'] at heq
    obtain ⟨hpayload, hanswer⟩ := counted_append_inj hp hp' heq
    exact ⟨hpayload, answer_inj h h' hanswer⟩

/-! ### Exchanges -/

theorem responseMacInput_inj (hc : c.payload.length ≤ 255) (hc' : c'.payload.length ≤ 255)
    (hr : r.payload.length ≤ 255) (hr' : r'.payload.length ≤ 255) :
    responseMacInput (remembered c) r.payload r.status =
        responseMacInput (remembered c') r'.payload r'.status ↔
      AlikeForResponse c c' ∧ r = r' := by
  constructor
  · intro heq
    rw [responseMacInput_remembered, responseMacInput_remembered] at heq
    obtain ⟨hheader, hexchange⟩ := List.append_inj heq rfl
    obtain ⟨hpayload, hdata, hstatus⟩ := exchangeBytes_inj hc hc' hr hr' hexchange
    simp only [Command.header, List.cons.injEq, and_true] at hheader
    obtain ⟨hcla, hins, hp1, hp2⟩ := hheader
    refine ⟨⟨hcla, hins, hp1, hp2, hpayload⟩, ?_⟩
    cases r
    cases r'
    rw [Response.mk.injEq]
    exact ⟨hdata, hstatus⟩
  · rintro ⟨halike, rfl⟩
    rw [halike.remembered_eq]

/-- Let each of two channels with response MACs have accepted a command, and at most 255 bytes of
data come back before the MAC.  Then the MACs of the two responses are taken over the same bytes,
with their padding or without it, exactly if the commands are the same to the MAC and the responses
are equal. -/
theorem responseMacInput_binds {keys keys' : SessionKeys} {options options' : Options}
    {level level' : SecurityLevel} {seed seed' : Option Block} {max max' : Nat}
    {new other : Channel} (created : create keys options level seed max = .ok new)
    (created' : create keys' options' level' seed' max' = .ok other) (hmac : level.rMac = true)
    (hmac' : level'.rMac = true) (calls calls' : List Call)
    (command : lastWrapped (new.log calls) = some c)
    (command' : lastWrapped (other.log calls') = some c') :
    ∃ last last', (new.after calls).lastCommand = some last ∧
      (other.after calls').lastCommand = some last' ∧
      ∀ r r' : Response, r.payload.length ≤ 255 → r'.payload.length ≤ 255 →
        (responseMacInput last r.payload r.status = responseMacInput last' r'.payload r'.status ↔
          AlikeForResponse c c' ∧ r = r') ∧
        (Padding.pad (responseMacInput last r.payload r.status) =
            Padding.pad (responseMacInput last' r'.payload r'.status) ↔
          AlikeForResponse c c' ∧ r = r') := by
  have hfresh := fresh_of_create created
  have hfresh' := fresh_of_create created'
  refine ⟨remembered c, remembered c', ?_, ?_, fun r r' hr hr' => ?_⟩
  · rw [(hfresh.follows_log hmac calls).lastCommand, command, Option.map_some]
  · rw [(hfresh'.follows_log hmac' calls').lastCommand, command', Option.map_some]
  · have hinj := responseMacInput_inj (length_le_of_lastWrapped hfresh.fits calls command)
      (length_le_of_lastWrapped hfresh'.fits calls' command') hr hr'
    exact ⟨hinj, Padding.pad_inj.trans hinj⟩

/-- A channel of the recorded session that has no MACs on commands. -/
def sampleResponses : Channel :=
  ⟨sampleKeys, .default, ⟨false, false, true, false⟩, 255, none, .zero, none⟩

/-- The recorded command without its data. -/
def sampleBare : Command := { sampleCommand with data := none }

/-- The recorded command is answered by one byte.  When a command without data is answered by the
data of the recorded one, then the bytes under the MAC begin alike, and still they differ. -/
theorem responseMacInput_binds_sample :
    create sampleKeys .default sampleLevel (some sampleSeed) 255 = .ok sample ∧
    create sampleKeys .default ⟨false, false, true, false⟩ none 255 = .ok sampleResponses ∧
    lastWrapped (sample.log sampleRepeated) = some sampleElsewhere ∧
    lastWrapped (sampleResponses.log [.wrap sampleBare]) = some sampleBare ∧
    ∃ last last', (sample.after sampleRepeated).lastCommand = some last ∧
      (sampleResponses.after [.wrap sampleBare]).lastCommand = some last' ∧
      responseMacInput last [0x07] .success ≠
        responseMacInput last' sampleCommand.payload .success ∧
      Padding.pad (responseMacInput last [0x07] .success) ≠
        Padding.pad (responseMacInput last' sampleCommand.payload .success) := by
  have created : create sampleKeys .default ⟨false, false, true, false⟩ none 255 =
      .ok sampleResponses := rfl
  have command : lastWrapped (sampleResponses.log [.wrap sampleBare]) = some sampleBare := rfl
  obtain ⟨last, last', hlast, hlast', hbinds⟩ :=
    responseMacInput_binds create_sample created rfl rfl _ _ lastWrapped_sampleRepeated command
  obtain ⟨hinput, hpadded⟩ :=
    hbinds ⟨[0x07], .success⟩ ⟨sampleCommand.payload, .success⟩ (by decide) (by decide)
  have hdiffer : ¬ (AlikeForResponse sampleElsewhere sampleBare ∧
      (⟨[0x07], .success⟩ : Response) = ⟨sampleCommand.payload, .success⟩) :=
    fun h => absurd h.1.payload (by decide)
  exact ⟨create_sample, created, lastWrapped_sampleRepeated, command, last, last', hlast, hlast',
    fun h => hdiffer (hinput.mp h), fun h => hdiffer (hpadded.mp h)⟩

end CardChannel.Channel
