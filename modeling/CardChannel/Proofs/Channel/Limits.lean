import CardChannel.Proofs.Channel.CommandChain
import CardChannel.Proofs.Channel.ResponseChain

/-! The lengths of commands.  A channel is created for the largest data field that the card accepts.
A command gains a MAC and up to a block of padding on its way, and what they take is set aside when
the channel is created: no command that the channel sends is larger than the card accepts, even if
its data fill their last block and gain a whole one.  So every length that is written on the way
fits its byte: the one before the data, the one under the MAC, and the one that is kept for the
response.  Both are `commands_within_limit`. -/

namespace CardChannel

theorem SecurityLevel.overhead_le_iff {level : SecurityLevel} {max : Nat} :
    level.overhead ≤ max ↔
      (level.cMac = true → 8 ≤ max) ∧ (level.cMac = true → level.cDecryption = true → 16 ≤ max) := by
  obtain ⟨cMac, cDecryption, _, _⟩ := level
  cases cMac <;> cases cDecryption <;> simp [overhead]
  omega

/-- A data field is written after its length, which stands in its byte in full. -/
theorem Command.toBytes_of_length_le {w : Command} (h : w.payload.length ≤ maxShortData) :
    ∃ bytes, w.toBytes = .ok bytes ∧ ∀ data, w.data = some data →
      ∃ length : UInt8, length.toNat = data.length ∧
        bytes = w.header ++ length :: data ++ w.le.toList := by
  refine ⟨_, if_pos h, fun data hdata => ⟨.ofNat data.length, ?_, ?_⟩⟩
  · rw [payload, hdata, Option.getD_some] at h
    exact UInt8.toNat_ofNat_of_lt' (Nat.lt_succ_of_le h)
  · rw [hdata, dataField]

namespace Channel

variable {ch : Channel} {c : Command} {keys : SessionKeys} {options : Options}
  {level : SecurityLevel} {seed : Option Block} {max : Nat}

/-- `w` is `c` as the channel sends it, with at most `max` bytes of data, and `next` the channel
afterwards.  The length before the data, the one under the MAC of the command and the one that the
MAC of the response will cover are all in full. -/
structure WithinLimit (ch : Channel) (max : Nat) (c w : Command) (next : Channel) : Prop where
  data : w.payload.length ≤ max
  written : ∃ bytes, w.toBytes = .ok bytes ∧ ∀ data, w.data = some data →
    ∃ length : UInt8, length.toNat = data.length ∧
      bytes = w.header ++ length :: data ++ w.le.toList
  signed : ch.level.cMac = true → ∃ covered body, Signed ch.options c covered ∧
    w.data = some (body ++
      (ch.keys.mac.mac (chainStart ch.keys.mac ch.options ch.icv) covered).toBytes)
  remembered : ch.level.rMac = true → ∃ last, next.lastCommand = some last ∧ Covered c last

theorem withinLimit_protect (hroom : ch.maxData + ch.level.overhead = max)
    (hmax : max ≤ maxShortData) (hle : c.payload.length ≤ ch.maxData) :
    ch.WithinLimit max c (ch.protect c) (ch.advance c) := by
  have hf : ch.Fits := Nat.le_trans (Nat.le_of_eq hroom) hmax
  have hdata : (ch.protect c).payload.length ≤ max := hroom ▸ length_payload_protect_le hle
  refine ⟨hdata, Command.toBytes_of_length_le (Nat.le_trans hdata hmax), fun hmac => ?_, fun hmac => ?_⟩
  · refine ⟨_, ch.protectPayload c.payload, signed_macInput hf hmac hle, ?_⟩
    rw [protect_of_true hmac, commandMac, nextInitial_eq]
  · refine ⟨_, by rw [lastCommand_advance, if_pos hmac], covered_remembered ?_⟩
    omega

theorem exists_create_iff :
    (∃ ch, create keys options level seed max = .ok ch) ↔
      level.validate = .ok () ∧ max ≤ maxShortData ∧ level.overhead ≤ max := by
  simp only [create_eq_ok_iff, dataRoom_eq_ok_iff]
  constructor
  · rintro ⟨_, hlevel, room, ⟨hmax, hroom⟩, -⟩
    exact ⟨hlevel, hmax, by omega⟩
  · rintro ⟨hlevel, hmax, hover⟩
    exact ⟨_, hlevel, max - level.overhead, ⟨hmax, by omega⟩, rfl⟩

/-- A channel is created if its level is valid and the limit leaves room for a MAC and for padding,
as far as the level asks for them.  From then on it refuses exactly the commands with more data than
the rest of the room holds, and every other command is sent within the limit. -/
theorem commands_within_limit (keys : SessionKeys) (options : Options) (level : SecurityLevel)
    (seed : Option Block) (max : Nat) :
    ((∃ new, create keys options level seed max = .ok new) ↔
      level.validate = .ok () ∧ max ≤ 255 ∧ (level.cMac = true → 8 ≤ max) ∧
        (level.cMac = true → level.cDecryption = true → 16 ≤ max)) ∧
    ∀ new ch, create keys options level seed max = .ok new → Continues new ch →
      ch.maxData = max - (if level.cMac then 8 else 0) - (if level.cDecryption then 8 else 0) ∧
      ∀ c : Command,
        ((ch.wrap c).1 = .error (.dataTooLong c.payload.length ch.maxData) ↔
          ch.maxData < c.payload.length) ∧
        (c.payload.length ≤ ch.maxData →
          ∃ w next, ch.wrap c = (.ok w, next) ∧ ch.WithinLimit max c w next) := by
  refine ⟨?_, fun new ch created same => ?_⟩
  · rw [exists_create_iff, SecurityLevel.overhead_le_iff, maxShortData]
  obtain ⟨hlevel, room, hdata, rfl⟩ := create_eq_ok_iff.mp created
  obtain ⟨hmax, hroom⟩ := dataRoom_eq_ok_iff.mp hdata
  have hsplit := SecurityLevel.overhead_of_validate hlevel
  obtain rfl : ch.maxData = room := same.maxData
  obtain rfl : ch.level = level := same.level
  refine ⟨by omega, fun c => ⟨⟨fun h => ?_, fun h => by rw [wrap_of_lt h]⟩, fun hle => ?_⟩⟩
  · refine Nat.lt_of_not_le fun hle => ?_
    rw [wrap_of_le hle] at h
    cases h
  · exact ⟨_, _, wrap_of_le hle, withinLimit_protect hroom hmax hle⟩

/-- A channel that has room for one block of data beside its MAC and its padding. -/
def sampleNarrow : Channel := { sample with maxData := 8 }

/-- A command whose data are one block. -/
def sampleBlock : Command := { sampleCommand with data := some (List.replicate 8 0x4F) }

/-- One block of data becomes two when it is padded, and with the MAC it fills the limit. -/
theorem commands_within_limit_sample :
    create sampleKeys .default sampleLevel (some sampleSeed) 24 = .ok sampleNarrow ∧
    Continues sampleNarrow sampleNarrow ∧ sampleBlock.payload.length ≤ sampleNarrow.maxData ∧
    ∃ w next, sampleNarrow.wrap sampleBlock = (.ok w, next) ∧
      sampleNarrow.WithinLimit 24 sampleBlock w next ∧ w.payload.length = 24 := by
  have created : create sampleKeys .default sampleLevel (some sampleSeed) 24 = .ok sampleNarrow :=
    rfl
  have hle : sampleBlock.payload.length ≤ sampleNarrow.maxData := by decide
  obtain ⟨-, hwrap⟩ := (commands_within_limit sampleKeys .default sampleLevel (some sampleSeed) 24).2
    sampleNarrow sampleNarrow created (.refl _)
  obtain ⟨w, next, heq, hwithin⟩ := (hwrap sampleBlock).2 hle
  refine ⟨created, .refl _, hle, w, next, heq, hwithin, ?_⟩
  rw [wrap_of_le hle] at heq
  cases heq
  rw [protect_of_true rfl, Command.payload, Option.getD_some, List.length_append, protectPayload,
    if_pos ⟨rfl, by decide⟩, SessionKey.length_encryptPadded]
  rfl

end Channel

end CardChannel
