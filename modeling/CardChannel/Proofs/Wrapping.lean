import CardChannel.Proofs.ResponseMac

/-! One exchange on a channel.  A command that fits is sent as `protect` gives it and leaves the
channel as `advance` gives it; `receive` is what the channel makes of the reply.  On a channel that
`Fits` short commands, `transmit` sends every command within the limit and no other:
`transmit_of_le` and `transmit_of_lt`. -/

namespace CardChannel

/-- How much longer than its payload the data field of a command may be. -/
def SecurityLevel.overhead (level : SecurityLevel) : Nat :=
  if level.cMac then if level.cDecryption then 16 else 8 else 0

namespace SecurityLevel

theorem overhead_le (level : SecurityLevel) : level.overhead ≤ 16 := by
  rw [overhead]
  split <;> try split
  all_goals omega

/-- A level that encrypts has a MAC as well, so that each protection counts on its own. -/
theorem overhead_of_validate {level : SecurityLevel} (h : level.validate = .ok ()) :
    level.overhead = (if level.cMac then 8 else 0) + if level.cDecryption then 8 else 0 := by
  obtain ⟨cMac, cDecryption, _, _⟩ := level
  match cMac, cDecryption with
  | true, true | true, false | false, false => rfl
  | false, true => cases h

end SecurityLevel

namespace Command

/-- The data field ends in this MAC. -/
def EndsIn (w : Command) (mac : Block) : Prop := ∃ body, w.data = some (body ++ mac.toBytes)

theorem EndsIn.data_ne {w : Command} {mac : Block} (h : w.EndsIn mac) : w.data ≠ some [] := by
  obtain ⟨body, hdata⟩ := h
  rw [hdata]
  intro hnil
  have hlen := congrArg List.length (Option.some.inj hnil)
  rw [List.length_append, Block.length_toBytes] at hlen
  cases hlen

end Command

namespace SessionKey

theorem length_encryptPadded (key : SessionKey) (data : List UInt8) :
    (key.encryptPadded data).length = Padding.paddedLength data.length := by
  rw [encryptPadded, Block.length_join, Chaining.length_encrypt, Block.length_split,
    Padding.length_pad, Padding.paddedLength]
  omega

end SessionKey

namespace Channel

variable {ch next : Channel} {c : Command}

/-! ### Commands -/

/-- A command as the channel sends it. -/
def protect (ch : Channel) (c : Command) : Command :=
  if ch.level.cMac then
    { c with
      cla := markSecure c.cla
      data := some (ch.protectPayload c.payload ++ (ch.commandMac c).toBytes) }
  else c

theorem protect_of_true (h : ch.level.cMac = true) :
    ch.protect c =
      { c with
        cla := markSecure c.cla
        data := some (ch.protectPayload c.payload ++ (ch.commandMac c).toBytes) } := by
  rw [protect, if_pos h]

theorem protect_of_false (hc : ch.level.cMac = false) : ch.protect c = c := by
  rw [protect, if_neg (by simp [hc])]

theorem payload_protect (hc : ch.level.cMac = true) :
    (ch.protect c).payload = ch.protectPayload c.payload ++ (ch.commandMac c).toBytes := by
  rw [protect_of_true hc]
  rfl

theorem endsIn_protect (ch : Channel) (hc : ch.level.cMac = true) (c : Command) :
    (ch.protect c).EndsIn (ch.commandMac c) := by
  rw [protect_of_true hc]
  exact ⟨_, rfl⟩

theorem protect_data_ne (hc : ch.level.cMac = true) : (ch.protect c).data ≠ some [] :=
  (ch.endsIn_protect hc c).data_ne

/-- The channel once it has sent a command. -/
def advance (ch : Channel) (c : Command) : Channel :=
  if ch.level.cMac then { ch.remember c with icv := some (ch.commandMac c) } else ch.remember c

/-- What holds of all bytes can be checked bit by bit. -/
theorem forall_class {p : UInt8 → Prop} (h : ∀ bits : BitVec 8, p ⟨bits⟩) (cla : UInt8) : p cla :=
  h cla.toBitVec

theorem and_markSecure (cla : UInt8) : markSecure cla &&& 0x04 = 0x04 :=
  forall_class (p := fun cla => markSecure cla &&& 0x04 = 0x04) (by decide +kernel) cla

theorem wrap_of_lt (h : ch.maxData < c.payload.length) :
    ch.wrap c = (.error (.dataTooLong c.payload.length ch.maxData), ch) := by
  rw [wrap, if_pos h]

theorem wrap_of_le (h : c.payload.length ≤ ch.maxData) :
    ch.wrap c = (.ok (ch.protect c), ch.advance c) := by
  rw [wrap, if_neg (Nat.not_lt.mpr h), protect, advance]
  split <;> rfl

/-- Every command that the channel accepts can be written as a short command. -/
def Fits (ch : Channel) : Prop := ch.maxData + ch.level.overhead ≤ maxShortData

theorem length_protectPayload_le (payload : List UInt8) :
    (ch.protectPayload payload).length ≤
      payload.length + if ch.level.cDecryption then 8 else 0 := by
  rw [protectPayload]
  split
  · rename_i h
    rw [SessionKey.length_encryptPadded, Padding.paddedLength, if_pos h.1]
    omega
  · exact Nat.le_add_right _ _

theorem length_payload_protect_le (h : c.payload.length ≤ ch.maxData) :
    (ch.protect c).payload.length ≤ ch.maxData + ch.level.overhead := by
  have hlen := ch.length_protectPayload_le c.payload
  rw [protect, SecurityLevel.overhead]
  split
  · rw [Command.payload, Option.getD_some, List.length_append, Block.length_toBytes]
    split at hlen <;> simp_all <;> omega
  · omega

theorem Fits.exists_toBytes (hf : ch.Fits) (h : c.payload.length ≤ ch.maxData) :
    ∃ bytes, (ch.protect c).toBytes = .ok bytes := by
  have hlen := length_payload_protect_le h
  rw [Fits, maxShortData] at hf
  exact ⟨_, if_pos (by omega)⟩

/-! ### Replies -/

/-- What the channel makes of a reply to the command it sent last. -/
def receive (ch : Channel) : Reply → Except Error Response × Channel
  | .error cause => (.error (.transport cause), ch)
  | .ok raw =>
    match Response.ofBytes raw with
    | .error cause => (.error (.response cause), ch)
    | .ok response => ch.unwrap response

theorem receive_of_length_lt {raw : List UInt8} (h : raw.length < 2) :
    ch.receive (.ok raw) = (.error (.response .incomplete), ch) := by
  simp only [receive, Response.ofBytes_of_length_lt h]

theorem receive_toBytes (ch : Channel) (r : Response) :
    ch.receive (.ok r.toBytes) = ch.unwrap r := by
  simp only [receive, Response.ofBytes_toBytes]

open Dialogue in
theorem transmit_of_lt (h : ch.maxData < c.payload.length) :
    ch.transmit c = done (.error (.dataTooLong c.payload.length ch.maxData), ch) := by
  rw [transmit, wrap_of_lt h]

open Dialogue in
theorem transmit_of_le (h : c.payload.length ≤ ch.maxData) {bytes : List UInt8}
    (hb : (ch.protect c).toBytes = .ok bytes) :
    ch.transmit c = send bytes fun reply => done ((ch.advance c).receive reply) := by
  rw [transmit, wrap_of_le h]
  simp only [hb]
  congr 1
  funext reply
  match reply with
  | .error cause => rfl
  | .ok raw =>
    cases hr : Response.ofBytes raw <;> simp [receive, hr]

/-- Only the length of a command is an error of length. -/
theorem receive_ne_dataTooLong {reply : Reply} {length max : Nat} :
    ch.receive reply ≠ (.error (.dataTooLong length max), next) := by
  intro h
  unfold receive at h
  split at h
  · cases h
  · split at h
    · cases h
    · rename_i response _
      obtain ⟨error, hu, rfl | rfl | rfl⟩ | ⟨plain, icv, hu⟩ := ch.unwrap_cases response <;>
        rw [hu] at h <;> cases h

/-! ### What does not change -/

/-- `after` is `before` with other chaining values. -/
structure Continues (before after : Channel) : Prop where
  keys : after.keys = before.keys
  options : after.options = before.options
  level : after.level = before.level
  maxData : after.maxData = before.maxData

namespace Continues

variable {ch ch₁ ch₂ ch₃ : Channel}

theorem refl (ch : Channel) : Continues ch ch := ⟨rfl, rfl, rfl, rfl⟩

theorem trans (h₁ : Continues ch₁ ch₂) (h₂ : Continues ch₂ ch₃) : Continues ch₁ ch₃ :=
  ⟨h₂.keys.trans h₁.keys, h₂.options.trans h₁.options, h₂.level.trans h₁.level,
    h₂.maxData.trans h₁.maxData⟩

theorem symm (h : Continues ch₁ ch₂) : Continues ch₂ ch₁ :=
  ⟨h.keys.symm, h.options.symm, h.level.symm, h.maxData.symm⟩

theorem fits (h : Continues ch₁ ch₂) (hf : ch₁.Fits) : ch₂.Fits := by
  rwa [Fits, h.maxData, h.level]

end Continues

theorem continues_advance (ch : Channel) (c : Command) : Continues ch (ch.advance c) := by
  rw [advance, remember]
  split <;> split <;> exact ⟨rfl, rfl, rfl, rfl⟩

theorem level_advance (ch : Channel) (c : Command) : (ch.advance c).level = ch.level :=
  (ch.continues_advance c).level

theorem icv_advance (ch : Channel) (c : Command) :
    (ch.advance c).icv = if ch.level.cMac then some (ch.commandMac c) else ch.icv := by
  rw [advance, remember]
  split <;> split <;> rfl

theorem lastCommand_advance (ch : Channel) (c : Command) :
    (ch.advance c).lastCommand =
      if ch.level.rMac then some (remembered c) else ch.lastCommand := by
  rw [advance, remember]
  split <;> split <;> rfl

theorem responseIcv_advance (ch : Channel) (c : Command) :
    (ch.advance c).responseIcv = ch.responseIcv := by
  rw [advance, remember]
  split <;> split <;> rfl

/-- Of the channel, unwrapping writes the chain of responses only. -/
theorem exists_unwrap_eq (ch : Channel) (r : Response) :
    ∃ icv, (ch.unwrap r).2 = { ch with responseIcv := icv } := by
  obtain ⟨error, hu, -⟩ | ⟨plain, icv, hu⟩ := ch.unwrap_cases r
  · exact ⟨ch.responseIcv, by rw [hu]⟩
  · exact ⟨icv, by rw [hu]⟩

theorem exists_receive_eq (ch : Channel) (reply : Reply) :
    ∃ icv, (ch.receive reply).2 = { ch with responseIcv := icv } := by
  unfold receive
  split
  · exact ⟨ch.responseIcv, rfl⟩
  · split
    · exact ⟨ch.responseIcv, rfl⟩
    · exact ch.exists_unwrap_eq _

theorem continues_unwrap (ch : Channel) (r : Response) : Continues ch (ch.unwrap r).2 := by
  obtain ⟨icv, h⟩ := ch.exists_unwrap_eq r
  rw [h]
  exact ⟨rfl, rfl, rfl, rfl⟩

theorem continues_receive (ch : Channel) (reply : Reply) : Continues ch (ch.receive reply).2 := by
  obtain ⟨icv, h⟩ := ch.exists_receive_eq reply
  rw [h]
  exact ⟨rfl, rfl, rfl, rfl⟩

theorem icv_unwrap (ch : Channel) (r : Response) : (ch.unwrap r).2.icv = ch.icv := by
  obtain ⟨icv, h⟩ := ch.exists_unwrap_eq r
  rw [h]

theorem icv_receive (ch : Channel) (reply : Reply) : (ch.receive reply).2.icv = ch.icv := by
  obtain ⟨icv, h⟩ := ch.exists_receive_eq reply
  rw [h]

theorem lastCommand_receive (ch : Channel) (reply : Reply) :
    (ch.receive reply).2.lastCommand = ch.lastCommand := by
  obtain ⟨icv, h⟩ := ch.exists_receive_eq reply
  rw [h]

section Received

variable {reply : Reply} {result : Except Error Response}

theorem continues_of_received (h : (ch.advance c).receive reply = (result, next)) :
    Continues ch next := by
  have hcont := (ch.continues_advance c).trans ((ch.advance c).continues_receive reply)
  rwa [h] at hcont

theorem icv_of_received (h : (ch.advance c).receive reply = (result, next)) :
    next.icv = if ch.level.cMac then some (ch.commandMac c) else ch.icv := by
  have hicv := (ch.advance c).icv_receive reply
  rwa [h, icv_advance] at hicv

end Received

/-! ### New channels -/

theorem error_eq_ok_iff {error : Error} {room : Nat} {p : Prop} (h : ¬ p) :
    Except.error error = .ok room ↔ p :=
  ⟨fun heq => (by cases heq), fun hp => absurd hp h⟩

theorem dataRoom_eq_ok_iff {level : SecurityLevel} {max room : Nat} :
    dataRoom level max = .ok room ↔ max ≤ maxShortData ∧ room + level.overhead = max := by
  by_cases hmax : maxShortData < max
  · rw [dataRoom, if_pos hmax]
    exact error_eq_ok_iff fun h => absurd hmax (Nat.not_lt.mpr h.1)
  have hle := Nat.le_of_not_lt hmax
  rw [dataRoom, if_neg hmax]
  obtain ⟨cMac, cDecryption, _, _⟩ := level
  match cMac, cDecryption with
  | false, _ =>
    show Except.ok max = .ok room ↔ max ≤ maxShortData ∧ room + 0 = max
    rw [Except.ok.injEq]
    omega
  | true, false =>
    show (if max < 8 then .error _ else .ok (max - 8)) = Except.ok room ↔
      max ≤ maxShortData ∧ room + 8 = max
    split
    · exact error_eq_ok_iff (by omega)
    · rw [Except.ok.injEq]
      omega
  | true, true =>
    show (if max < 8 then .error _ else if max - 8 < 8 then .error _ else .ok (max - 8 - 8)) =
      Except.ok room ↔ max ≤ maxShortData ∧ room + 16 = max
    split
    · exact error_eq_ok_iff (by omega)
    split
    · exact error_eq_ok_iff (by omega)
    · rw [Except.ok.injEq]
      omega

section Create

variable {keys : SessionKeys} {options : Options} {level : SecurityLevel} {icv : Option Block}
  {max : Nat}

theorem create_eq_ok_iff :
    create keys options level icv max = .ok ch ↔
      level.validate = .ok () ∧ ∃ room, dataRoom level max = .ok room ∧
        ch = ⟨keys, options, level, room, icv, icv.getD .zero, none⟩ := by
  rw [create, check_bind_eq_ok_iff]
  simp only [bind_eq_ok_iff, pure, Except.pure, Except.ok.injEq, eq_comm (b := ch)]

theorem fits_of_create (h : create keys options level icv max = .ok ch) : ch.Fits := by
  obtain ⟨-, room, hroom, rfl⟩ := create_eq_ok_iff.mp h
  have := dataRoom_eq_ok_iff.mp hroom
  rw [Fits]
  simp only
  omega

end Create

end Channel

end CardChannel
