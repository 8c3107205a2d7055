import CardChannel.Proofs.Channel.Calls

/-! The chain of response MACs.  What a channel accepts depends on two things in the record of its
calls: the last command that was accepted, and the MAC of the last response that was.  `Due` is the
rule for the MAC that a response has to carry, and `responses_chained` says that a channel accepts
the responses that carry it and no others, whatever calls were made before. -/

namespace CardChannel

/-- The last eight bytes of the data. -/
def Response.mac (r : Response) : Block := .ofList (r.payload.drop (r.payload.length - 8))

namespace Channel

/-- The part of a command that the MAC of its response covers: the header without the bits of the
class byte that depend on the channel, and the plain data, if there are any, after their length. -/
inductive Covered (c : Command) : List UInt8 → Prop where
  | header (empty : c.payload = []) : Covered c [c.cla &&& 0xF8, c.ins, c.p1, c.p2]
  | data {length : UInt8} (nonempty : c.payload ≠ []) (fits : length.toNat = c.payload.length) :
      Covered c ((c.cla &&& 0xF8) :: c.ins :: c.p1 :: c.p2 :: length :: c.payload)

/-- The last command that was accepted. -/
def lastWrapped (entries : List Entry) : Option Command :=
  (wrapped entries).getLast?.map Prod.fst

/-- The MAC of the last response that was accepted, and before the first one the seed. -/
def lastMac (seed : Option Block) (entries : List Entry) : Block :=
  ((verified entries).getLast?.map Response.mac).getD (seed.getD .zero)

/-- The MAC that has to follow the data of `plain`.  The length of the data counts modulo 256. -/
inductive Due (key : SessionKey) (seed : Option Block) (entries : List Entry) (plain : Response) :
    Block → Prop where
  | intro {c : Command} {covered : List UInt8} {mac : Block}
      (command : lastWrapped entries = some c) (covers : Covered c covered)
      (computed : mac = key.mac (lastMac seed entries)
        (covered ++ UInt8.ofNat plain.payload.length :: plain.payload ++
          [plain.status.sw1, plain.status.sw2])) :
      Due key seed entries plain mac

variable {ch new : Channel} {c : Command} {entries : List Entry} {keys : SessionKeys}
  {options : Options} {level : SecurityLevel} {seed : Option Block} {max : Nat}

theorem covered_remembered (h : c.payload.length ≤ maxShortData) : Covered c (remembered c) := by
  rw [remembered]
  cases hdata : c.payload with
  | nil => exact .header hdata
  | cons byte rest =>
    have hlength : (UInt8.ofNat c.payload.length).toNat = c.payload.length :=
      UInt8.toNat_ofNat_of_lt' (Nat.lt_succ_of_le h)
    have hcovered := Covered.data (c := c) (by rw [hdata]; exact List.cons_ne_nil _ _) hlength
    rw [hdata] at hcovered
    exact hcovered

theorem Covered.eq_remembered {bytes : List UInt8} (h : Covered c bytes) :
    bytes = remembered c := by
  cases h with
  | header empty =>
    rw [remembered, empty]
    rfl
  | data nonempty fits =>
    rw [remembered, if_neg (by simpa using nonempty), ← fits, UInt8.ofNat_toNat]
    rfl

theorem mac_sign (ch : Channel) (last : List UInt8) (plain : Response) :
    (ch.sign last plain).mac = ch.responseMac last plain.payload plain.status := by
  rw [Response.mac, length_sign, macLength, Nat.add_sub_cancel, sign, List.drop_left,
    Block.ofList_toBytes]

/-! ### The record and the channel -/

/-- The channel holds what its record asks for. -/
structure Follows (seed : Option Block) (entries : List Entry) (ch : Channel) : Prop where
  lastCommand : ch.lastCommand = (lastWrapped entries).map remembered
  responseIcv : ch.responseIcv = lastMac seed entries

namespace Follows

theorem step {call : Call} {entry : Entry} {next : Channel} (h : Follows seed entries ch)
    (hl : ch.level.rMac = true) (hp : Performed ch call entry next) :
    Follows seed (entries ++ [entry]) next := by
  cases hp with
  | @protects c =>
    refine ⟨?_, ?_⟩
    · rw [lastCommand_advance, if_pos hl, lastWrapped, wrapped_append]
      simp [wrapped, Entry.command?]
    · rw [responseIcv_advance, h.responseIcv, lastMac, lastMac, verified_concat rfl]
  | unchecked level =>
    rw [hl] at level
    cases level
  | @verified plain last =>
    refine ⟨?_, ?_⟩
    · rw [lastWrapped, wrapped_concat rfl]
      exact h.lastCommand
    · rw [lastMac, verified_append]
      simp [Channel.verified, Entry.response?, mac_sign]
  | _ =>
    refine ⟨?_, ?_⟩
    · rw [lastWrapped, wrapped_concat rfl]
      exact h.lastCommand
    · rw [lastMac, verified_concat rfl]
      exact h.responseIcv

theorem due_iff (h : Follows seed entries ch)
    (hshort : ∀ c, lastWrapped entries = some c → c.payload.length ≤ maxShortData)
    {plain : Response} {mac : Block} :
    Due ch.keys.rMac seed entries plain mac ↔
      ∃ last, ch.lastCommand = some last ∧
        mac = ch.responseMac last plain.payload plain.status := by
  constructor
  · rintro ⟨command, covers, rfl⟩
    refine ⟨_, by rw [h.lastCommand, command, Option.map_some, ← covers.eq_remembered], ?_⟩
    rw [responseMac, h.responseIcv]
    rfl
  · rintro ⟨last, hlast, rfl⟩
    rw [h.lastCommand, Option.map_eq_some_iff] at hlast
    obtain ⟨c, hc, rfl⟩ := hlast
    refine .intro hc (covered_remembered (hshort c hc)) ?_
    rw [responseMac, h.responseIcv]
    rfl

/-- The channel accepts the responses that carry the MAC that is due. -/
theorem accepts_iff (h : Follows seed entries ch) (hl : ch.level.rMac = true)
    (hshort : ∀ c, lastWrapped entries = some c → c.payload.length ≤ maxShortData)
    {r plain : Response} {next : Channel} :
    ch.unwrap r = (.ok plain, next) ↔
      ∃ mac, Due ch.keys.rMac seed entries plain mac ∧
        r = ⟨plain.payload ++ mac.toBytes, plain.status⟩ ∧
        next = { ch with responseIcv := mac } := by
  simp only [unwrap_eq_ok_iff hl, h.due_iff hshort]
  constructor
  · rintro ⟨last, hlast, hr, hnext⟩
    exact ⟨_, ⟨last, hlast, rfl⟩, hr, hnext⟩
  · rintro ⟨_, ⟨last, hlast, rfl⟩, hr, hnext⟩
    exact ⟨last, hlast, hr, hnext⟩

/-- After a first command, the MAC is all that a response can lack. -/
theorem unwrap_of_not_due (h : Follows seed entries ch) (hl : ch.level.rMac = true)
    (hshort : ∀ c, lastWrapped entries = some c → c.payload.length ≤ maxShortData)
    {r : Response} (hlong : 8 ≤ r.payload.length) (hnonempty : wrapped entries ≠ [])
    (hundue : ∀ plain mac, Due ch.keys.rMac seed entries plain mac →
      r ≠ ⟨plain.payload ++ mac.toBytes, plain.status⟩) :
    ch.unwrap r = (.error invalidResponseMac, ch) := by
  have hlast : lastWrapped entries = some ((wrapped entries).getLast hnonempty).1 := by
    rw [lastWrapped, List.getLast?_eq_some_getLast hnonempty, Option.map_some]
  have hcommand := h.lastCommand
  rw [hlast, Option.map_some] at hcommand
  refine unwrap_of_unsigned hl hlong hcommand fun plain => ?_
  exact hundue plain _ ((h.due_iff hshort).mpr ⟨_, hcommand, rfl⟩)

end Follows

theorem Fresh.follows_log (h : Fresh keys options level seed new) (hmac : level.rMac = true)
    (calls : List Call) : Follows seed (new.log calls) (new.after calls) := by
  refine run_induction (motive := Follows seed) ⟨h.lastCommand, h.responseIcv⟩ ?_ calls
  intro entries ch call entry next hcont hfollows hp
  exact hfollows.step (by rw [hcont.level, h.level, hmac]) hp

theorem length_le_of_lastWrapped (hf : new.Fits) (calls : List Call) {c : Command}
    (h : lastWrapped (new.log calls) = some c) : c.payload.length ≤ maxShortData := by
  have hmem : c ∈ (wrapped (new.log calls)).map Prod.fst := by
    rw [lastWrapped, Option.map_eq_some_iff] at h
    obtain ⟨pair, hlast, rfl⟩ := h
    exact List.mem_map_of_mem (List.mem_of_getLast? hlast)
  rw [wrapped_log, List.mem_filter] at hmem
  have hle : c.payload.length ≤ new.maxData := of_decide_eq_true hmem.2
  rw [Fits] at hf
  omega

/-- Whatever calls are made on a new channel, it then accepts exactly the responses that carry the
MAC that is due; a response that is too short, one before the first command, and one without that
MAC are told apart in this order.  A rejected call changes nothing. -/
theorem responses_chained (created : create keys options level seed max = .ok new)
    (hmac : level.rMac = true) (calls : List Call) (r : Response) :
    (new.after calls).responseIcv = lastMac seed (new.log calls) ∧
    (∀ plain next, (new.after calls).unwrap r = (.ok plain, next) ↔
      ∃ mac, Due keys.rMac seed (new.log calls) plain mac ∧
        r = ⟨plain.payload ++ mac.toBytes, plain.status⟩ ∧
        next = { new.after calls with responseIcv := mac }) ∧
    (r.payload.length < 8 → (new.after calls).unwrap r =
      (.error (.protocol "response too short to carry an R-MAC"), new.after calls)) ∧
    (8 ≤ r.payload.length → wrapped (new.log calls) = [] → (new.after calls).unwrap r =
      (.error (.protocol "no command to match the response against"), new.after calls)) ∧
    (8 ≤ r.payload.length → wrapped (new.log calls) ≠ [] →
      (∀ plain mac, Due keys.rMac seed (new.log calls) plain mac →
        r ≠ ⟨plain.payload ++ mac.toBytes, plain.status⟩) →
      (new.after calls).unwrap r =
        (.error (.authenticationFailed "invalid R-MAC"), new.after calls)) ∧
    ∀ call, ((new.after calls).perform call).1.command? = none →
      ((new.after calls).perform call).1.response? = none →
      ((new.after calls).perform call).2 = new.after calls := by
  have hfresh := fresh_of_create created
  have hcont := new.continues_after calls
  have hfollows := hfresh.follows_log hmac calls
  have hl : (new.after calls).level.rMac = true := by rw [hcont.level, hfresh.level, hmac]
  have hshort := fun c => length_le_of_lastWrapped (c := c) hfresh.fits calls
  obtain rfl : (new.after calls).keys = keys := hcont.keys.trans hfresh.keys
  refine ⟨hfollows.responseIcv, fun plain next => hfollows.accepts_iff hl hshort, unwrap_of_lt hl,
    fun hlong hempty => unwrap_of_none hl hlong ?_, hfollows.unwrap_of_not_due hl hshort,
    fun call => ((new.after calls).performed call).eq_of_rejected⟩
  rw [hfollows.lastCommand, lastWrapped, hempty]
  rfl

/-- The recorded response to the command, after a call that was rejected. -/
theorem responses_chained_sample :
    create sampleKeys .default sampleLevel (some sampleSeed) 255 = .ok sample ∧
    sampleLevel.rMac = true ∧
    Due sampleKeys.rMac (some sampleSeed) (sample.log sampleCalls) ⟨[0x07], .success⟩
      ⟨0x99BA9C8ECCDE3B8E⟩ ∧
    (sample.after sampleCalls).unwrap
        ⟨[0x07, 0x99, 0xBA, 0x9C, 0x8E, 0xCC, 0xDE, 0x3B, 0x8E], .success⟩ =
      (.ok ⟨[0x07], .success⟩,
        { sample.after sampleCalls with responseIcv := ⟨0x99BA9C8ECCDE3B8E⟩ }) := by
  have hlog := log_sampleCalls []
  rw [List.append_nil] at hlog
  have hdue : Due sampleKeys.rMac (some sampleSeed) (sample.log sampleCalls) ⟨[0x07], .success⟩
      ⟨0x99BA9C8ECCDE3B8E⟩ := by
    rw [hlog]
    exact .intro rfl (covered_remembered (by decide)) (by decide +kernel)
  have haccepts := (responses_chained create_sample rfl sampleCalls
    ⟨[0x07, 0x99, 0xBA, 0x9C, 0x8E, 0xCC, 0xDE, 0x3B, 0x8E], .success⟩).2.1
  exact ⟨create_sample, rfl, hdue, (haccepts _ _).mpr ⟨_, hdue, rfl, rfl⟩⟩

end Channel

end CardChannel
