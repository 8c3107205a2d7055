import CardChannel.Proofs.Channel.ResponseChain

/-! Responses that are presented again.  The MAC of a response is chained to the one before it, and
for one command and one response there is at most one chaining value under which it is right:
`responseIcv_unique`.  A response that was accepted once is therefore rejected wherever a channel
with the same keys, after a command that is the same to the MAC, has come to another chaining
value: `replay_rejected`. -/

namespace CardChannel.Channel

/-- The channel takes the response for the answer to its last command. -/
def Accepts (ch : Channel) (r : Response) : Prop := ∃ plain next, ch.unwrap r = (.ok plain, next)

/-- The MAC of a response does not tell the two commands apart: they have the same payload and, but
for the bits of the class byte that depend on the channel, the same header. -/
structure AlikeForResponse (c c' : Command) : Prop where
  cla : c.cla &&& 0xF8 = c'.cla &&& 0xF8
  ins : c.ins = c'.ins
  p1 : c.p1 = c'.p1
  p2 : c.p2 = c'.p2
  payload : c.payload = c'.payload

variable {a b new : Channel} {c c' : Command} {last : List UInt8} {r plain : Response}

theorem AlikeForResponse.remembered_eq (h : AlikeForResponse c c') :
    remembered c = remembered c' := by
  have hcla : plainClass c.cla = plainClass c'.cla := h.cla
  rw [remembered, remembered, h.payload]
  simp only [Command.header, hcla, h.ins, h.p1, h.p2]

/-- A signed response tells the chaining value that it was signed under. -/
theorem responseIcv_of_sign (hkeys : b.keys = a.keys) {plain' : Response}
    (h : a.sign last plain = b.sign last plain') : a.responseIcv = b.responseIcv := by
  obtain ⟨hpayload, hstatus⟩ := Response.mk.inj h
  obtain ⟨hdata, hmac⟩ := List.append_inj' hpayload
    (by rw [Block.length_toBytes, Block.length_toBytes])
  rw [Block.toBytes_inj, responseMac, responseMac, hkeys, hdata, hstatus,
    SessionKey.mac_initial_inj] at hmac
  exact hmac

/-- Two channels that accept the same response to the same command hold the same chaining value. -/
theorem responseIcv_unique (hkeys : b.keys = a.keys) (ha : a.level.rMac = true)
    (hb : b.level.rMac = true) (hlast : b.lastCommand = a.lastCommand) (hra : a.Accepts r)
    (hrb : b.Accepts r) : a.responseIcv = b.responseIcv := by
  obtain ⟨plain, next, hra⟩ := hra
  obtain ⟨plain', next', hrb⟩ := hrb
  obtain ⟨last, hc, rfl, -⟩ := (unwrap_eq_ok_iff ha).mp hra
  obtain ⟨last', hc', hsign, -⟩ := (unwrap_eq_ok_iff hb).mp hrb
  obtain rfl : last = last' := by
    rw [hlast, hc] at hc'
    exact Option.some.inj hc'
  exact responseIcv_of_sign hkeys hsign

/-- Under another chaining value it is the MAC of the response that fails. -/
theorem unwrap_replayed (hkeys : b.keys = a.keys) (ha : a.level.rMac = true)
    (hb : b.level.rMac = true) (hlast : b.lastCommand = a.lastCommand) (hr : a.Accepts r)
    (hne : b.responseIcv ≠ a.responseIcv) : b.unwrap r = (.error invalidResponseMac, b) := by
  have hrejects : ¬ b.Accepts r := fun hrb =>
    hne (responseIcv_unique hkeys ha hb hlast hr hrb).symm
  obtain ⟨plain, next, hr⟩ := hr
  obtain ⟨last, hc, rfl, -⟩ := (unwrap_eq_ok_iff ha).mp hr
  rw [hc] at hlast
  refine unwrap_of_unsigned hb (by rw [length_sign]; omega) hlast fun plain' hsign => hrejects ?_
  rw [hsign]
  exact ⟨_, _, unwrap_sign hb hlast plain'⟩

/-- At most one chaining value makes a channel accept a response to a command.  So a response that
was accepted once fails authentication in every state of a channel with the same keys in which the
last command is the same to the MAC and the chaining value is another one; and it is accepted twice
in a row only if the chain stood still. -/
theorem replay_rejected {keys : SessionKeys} {options : Options} {level : SecurityLevel}
    {seed : Option Block} {max : Nat} {next : Channel}
    (created : create keys options level seed max = .ok new) (hmac : level.rMac = true)
    (calls : List Call) (accepted : (new.after calls).unwrap r = (.ok plain, next)) :
    (∀ (ch : Channel) last r icv icv', ch.level.rMac = true →
      { ch with lastCommand := some last, responseIcv := icv }.Accepts r →
      { ch with lastCommand := some last, responseIcv := icv' }.Accepts r → icv = icv') ∧
    (∀ options' level' seed' max' other calls' c c',
      create keys options' level' seed' max' = .ok other → level'.rMac = true →
      lastWrapped (new.log calls) = some c → lastWrapped (other.log calls') = some c' →
      AlikeForResponse c c' → (other.after calls').responseIcv ≠ (new.after calls).responseIcv →
      (other.after calls').unwrap r =
        (.error (.authenticationFailed "invalid R-MAC"), other.after calls')) ∧
    (next.Accepts r → next.responseIcv = (new.after calls).responseIcv) := by
  have hfresh := fresh_of_create created
  have hcont := new.continues_after calls
  have hl : (new.after calls).level.rMac = true := by rw [hcont.level, hfresh.level, hmac]
  refine ⟨fun ch last r icv icv' hch hr hr' => ?_, ?_, fun hagain => ?_⟩
  · exact responseIcv_unique (a := { ch with lastCommand := some last, responseIcv := icv })
      (b := { ch with lastCommand := some last, responseIcv := icv' }) rfl hch hch rfl hr hr'
  · intro options' level' seed' max' other calls' c c' created' hmac' hc hc' halike hne
    have hfresh' := fresh_of_create created'
    have hcont' := other.continues_after calls'
    refine unwrap_replayed ?_ hl ?_ ?_ ⟨plain, next, accepted⟩ hne
    · rw [hcont'.keys, hcont.keys, hfresh'.keys, hfresh.keys]
    · rw [hcont'.level, hfresh'.level, hmac']
    · rw [(hfresh'.follows_log hmac' calls').lastCommand,
        (hfresh.follows_log hmac calls).lastCommand, hc, hc', Option.map_some, Option.map_some,
        halike.remembered_eq]
  · obtain ⟨last, -, -, hnext⟩ := (unwrap_eq_ok_iff hl).mp accepted
    refine (responseIcv_unique (b := next) ?_ hl ?_ ?_ ⟨plain, next, accepted⟩ hagain).symm
    all_goals rw [hnext]
    exact hl

/-- The recorded response to the command. -/
def sampleResponse : Response :=
  ⟨[0x07, 0x99, 0xBA, 0x9C, 0x8E, 0xCC, 0xDE, 0x3B, 0x8E], .success⟩

/-- The channel once the response has come. -/
def sampleAnswered : Channel := { sampleSent with responseIcv := ⟨0x99BA9C8ECCDE3B8E⟩ }

theorem unwrap_sampleResponse :
    sampleSent.unwrap sampleResponse = (.ok ⟨[0x07], .success⟩, sampleAnswered) := by
  have hmac : sampleSent.responseMac (remembered sampleCommand) [0x07] .success =
      ⟨0x99BA9C8ECCDE3B8E⟩ := by decide +kernel
  refine (unwrap_eq_ok_iff rfl).mpr ⟨remembered sampleCommand, rfl, ?_, ?_⟩
  · rw [sign, hmac]
    rfl
  · rw [hmac]
    rfl

/-- The command as it goes over another logical channel. -/
def sampleElsewhere : Command := { sampleCommand with cla := 0x81 }

/-- The response comes, and the command is sent once more. -/
def sampleRepeated : List Call := sampleCalls ++ [.unwrap sampleResponse, .wrap sampleElsewhere]

theorem after_sampleRepeated :
    sample.after sampleRepeated = sampleAnswered.advance sampleElsewhere := by
  have hle : sampleElsewhere.payload.length ≤ sampleAnswered.maxData := by decide
  rw [sampleRepeated, after_sampleCalls]
  simp only [after, perform, unwrap_sampleResponse, wrap_of_le hle]

theorem lastWrapped_sampleRepeated :
    lastWrapped (sample.log sampleRepeated) = some sampleElsewhere := by
  have hle : sampleElsewhere.payload.length ≤ sampleAnswered.maxData := by decide
  rw [sampleRepeated, log_sampleCalls]
  simp only [log, perform, unwrap_sampleResponse, wrap_of_le hle]
  rfl

/-- The response is accepted once.  It is rejected when it is presented again at once, and when it
is presented as the answer to the same command later. -/
theorem replay_rejected_sample :
    create sampleKeys .default sampleLevel (some sampleSeed) 255 = .ok sample ∧
    sampleLevel.rMac = true ∧
    (sample.after sampleCalls).unwrap sampleResponse =
      (.ok ⟨[0x07], .success⟩, sampleAnswered) ∧
    ¬ sampleAnswered.Accepts sampleResponse ∧
    (sample.after sampleRepeated).unwrap sampleResponse =
      (.error (.authenticationFailed "invalid R-MAC"), sample.after sampleRepeated) := by
  have hafter : sample.after sampleCalls = sampleSent := by
    have h := after_sampleCalls []
    rwa [List.append_nil] at h
  have hlast : lastWrapped (sample.log sampleCalls) = some sampleCommand := by
    have h := log_sampleCalls []
    rw [List.append_nil] at h
    rw [h]
    rfl
  have haccepted : (sample.after sampleCalls).unwrap sampleResponse =
      (.ok ⟨[0x07], .success⟩, sampleAnswered) := by
    rw [hafter, unwrap_sampleResponse]
  obtain ⟨-, hlater, hagain⟩ := replay_rejected create_sample rfl sampleCalls haccepted
  rw [hafter] at hlater hagain
  refine ⟨create_sample, rfl, haccepted, fun h => absurd (hagain h) (by decide), ?_⟩
  refine hlater _ _ _ _ _ sampleRepeated _ _ create_sample rfl hlast lastWrapped_sampleRepeated
    ⟨rfl, rfl, rfl, rfl, rfl⟩ ?_
  rw [after_sampleRepeated, responseIcv_advance]
  decide

end CardChannel.Channel
