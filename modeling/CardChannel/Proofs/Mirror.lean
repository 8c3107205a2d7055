import CardChannel.Proofs.Recovery
import CardChannel.Proofs.Wrapping

/-! The channel at the other end.  A card that shares a channel recovers the plain command from what
it receives, protects it again with its own channel, and accepts if that gives the same bytes.  For a
command with a MAC it comes down to whether the two MACs agree: `accept_protect_eq`.  As long as both
channels hold the same values (`Mirrors`), they do for the `Readable` commands and for no others, and
the host unwraps exactly the response that the card protects. -/

namespace CardChannel.Channel

variable {ch mirror : Channel} {c : Command} {bytes : List UInt8}

/-! ### The card -/

/-- The class byte without the bit that marks a secured command. -/
def unmarkSecure (cla : UInt8) : UInt8 := cla &&& 0xFB

/-- The payload in what travelled. -/
def unprotectPayload (ch : Channel) (body : List UInt8) : Option (List UInt8) :=
  if ch.level.cDecryption ∧ body ≠ [] then (ch.keys.enc.decryptPadded body).toOption
  else some body

/-- The plain command in a command that was received. -/
def recover (ch : Channel) (received : Command) : Option Command :=
  if ch.level.cMac then
    if received.payload.length < macLength then none
    else
      (ch.unprotectPayload (received.payload.take (received.payload.length - macLength))).map
        fun data =>
          { received with
            cla := unmarkSecure received.cla
            data := if data = [] then none else some data }
  else some received

/-- The plain command in `raw` and the channel after it, if the channel itself sends it so. -/
def accept (ch : Channel) (raw : List UInt8) : Option (Command × Channel) :=
  match Command.ofBytes raw with
  | .error _ => none
  | .ok received =>
    match ch.recover received with
    | none => none
    | some c =>
      match ch.wrap c with
      | (.error _, _) => none
      | (.ok wrapped, next) => if wrapped.toBytes.toOption = some raw then some (c, next) else none

/-- A response as it is sent in answer to the last command, and the channel after it. -/
def answer (ch : Channel) (r : Response) : Response × Channel :=
  if ch.level.rMac then
    let last := ch.lastCommand.getD []
    (ch.sign last r, { ch with responseIcv := ch.responseMac last r.payload r.status })
  else (r, ch)

/-- The two ends of one channel; the limit binds the host only. -/
structure Mirrors (ch mirror : Channel) : Prop where
  keys : mirror.keys = ch.keys
  options : mirror.options = ch.options
  level : mirror.level = ch.level
  icv : mirror.icv = ch.icv
  responseIcv : mirror.responseIcv = ch.responseIcv
  lastCommand : mirror.lastCommand = ch.lastCommand
  maxData : ch.maxData ≤ mirror.maxData

/-- The bytes of the command, as sent, tell what its MAC was taken over.  A MAC that is taken before
the class byte is marked can only be checked if the mark was not there before. -/
def Readable (options : Options) (level : SecurityLevel) (c : Command) : Prop :=
  level.cMac = true → options.macOnUnmodified = true → unmarkSecure c.cla = c.cla

/-- A command as the card reads it. -/
def delivered (level : SecurityLevel) (c : Command) : Command :=
  if level.cMac then
    { c with
      cla := unmarkSecure c.cla
      data := if c.payload = [] then none else some c.payload }
  else c

/-! ### Class bytes -/

theorem unmarkSecure_markSecure (cla : UInt8) : unmarkSecure (markSecure cla) = unmarkSecure cla :=
  forall_class (p := fun cla => unmarkSecure (markSecure cla) = unmarkSecure cla)
    (by decide +kernel) cla

theorem markSecure_unmarkSecure (cla : UInt8) : markSecure (unmarkSecure cla) = markSecure cla :=
  forall_class (p := fun cla => markSecure (unmarkSecure cla) = markSecure cla)
    (by decide +kernel) cla

theorem plainClass_unmarkSecure (cla : UInt8) : plainClass (unmarkSecure cla) = plainClass cla :=
  forall_class (p := fun cla => plainClass (unmarkSecure cla) = plainClass cla)
    (by decide +kernel) cla

theorem unmarkSecure_xor_self {cla : UInt8} (h : unmarkSecure cla ≠ cla) :
    unmarkSecure cla ^^^ cla = 0x04 :=
  forall_class (p := fun cla => unmarkSecure cla ≠ cla → unmarkSecure cla ^^^ cla = 0x04)
    (by decide +kernel) cla h

/-! ### Commands -/

@[simp] theorem payload_delivered (level : SecurityLevel) (c : Command) :
    (delivered level c).payload = c.payload := by
  rw [delivered]
  split
  · rw [Command.payload]
    split <;> simp_all
  · rfl

theorem remembered_delivered (level : SecurityLevel) (c : Command) :
    remembered (delivered level c) = remembered c := by
  rw [remembered, remembered, payload_delivered]
  congr 1
  rw [delivered]
  split
  · simp only [Command.header, plainClass_unmarkSecure]
  · rfl

theorem Mirrors.advance (h : Mirrors ch mirror) (hmac : ch.level.cMac = true →
    mirror.commandMac (delivered ch.level c) = ch.commandMac c) :
    Mirrors (ch.advance c) (mirror.advance (delivered ch.level c)) := by
  have h₁ := ch.continues_advance c
  have h₂ := mirror.continues_advance (delivered ch.level c)
  refine ⟨by rw [h₁.keys, h₂.keys, h.keys], by rw [h₁.options, h₂.options, h.options],
    by rw [h₁.level, h₂.level, h.level], ?_,
    by rw [responseIcv_advance, responseIcv_advance, h.responseIcv], ?_,
    by rw [h₁.maxData, h₂.maxData]; exact h.maxData⟩
  · rw [icv_advance, icv_advance, h.level, h.icv]
    split
    · rename_i hc
      rw [hmac hc]
    · rfl
  · rw [lastCommand_advance, lastCommand_advance, h.level, remembered_delivered, h.lastCommand]

theorem macInput_delivered {options : Options} {level : SecurityLevel} (hc : level.cMac = true)
    (hr : Readable options level c) :
    macInput options (delivered level c) = macInput options c := by
  rw [macInput, macInput, payload_delivered]
  simp only [delivered, hc, if_true, markSecure_unmarkSecure]
  split
  · rename_i hunmodified
    simp only [Command.header, hr hc hunmodified]
  · rfl

theorem macInput_unmodified {options : Options} (h : options.macOnUnmodified = true)
    (c : Command) : macInput options c =
      c.cla :: c.ins :: c.p1 :: c.p2 :: UInt8.ofNat c.payload.length :: c.payload := by
  rw [macInput, if_pos h]
  rfl

/-- A MAC that covers a mark is the one that is taken without it only where the values that the two
start from differ in the same bit. -/
theorem commandMac_delivered_iff (hkeys : mirror.keys = ch.keys)
    (hoptions : mirror.options = ch.options) (hc : ch.level.cMac = true)
    (hr : ¬ Readable ch.options ch.level c) :
    mirror.commandMac (delivered ch.level c) = ch.commandMac c ↔
      mirror.nextInitial ^^^ ch.nextInitial = Block.ofHead 0x04 := by
  obtain ⟨-, hr⟩ := Classical.not_imp.mp hr
  obtain ⟨hunmodified, hmarked⟩ := Classical.not_imp.mp hr
  rw [commandMac, commandMac, hkeys, hoptions, macInput_unmodified hunmodified,
    macInput_unmodified hunmodified, payload_delivered, delivered, if_pos hc,
    SessionKey.mac_head_eq_iff, unmarkSecure_xor_self hmarked]

theorem Mirrors.nextInitial (h : Mirrors ch mirror) : mirror.nextInitial = ch.nextInitial := by
  rw [Channel.nextInitial, Channel.nextInitial, h.icv, h.options, h.keys]

theorem Mirrors.commandMac (h : Mirrors ch mirror) {c c' : Command}
    (hi : macInput ch.options c' = macInput ch.options c) :
    mirror.commandMac c' = ch.commandMac c := by
  rw [Channel.commandMac, Channel.commandMac, h.nextInitial, h.keys, h.options, hi]

theorem unprotectPayload_protectPayload (ch : Channel) (payload : List UInt8) :
    ch.unprotectPayload (ch.protectPayload payload) = some payload := by
  rw [protectPayload]
  split
  · rename_i h
    have hne : ch.keys.enc.encryptPadded payload ≠ [] := by
      intro hnil
      have hlen := ch.keys.enc.length_encryptPadded payload
      rw [hnil, Padding.paddedLength, List.length_nil] at hlen
      omega
    rw [unprotectPayload, if_pos ⟨h.1, hne⟩, SessionKey.decryptPadded_encryptPadded]
    rfl
  · rename_i h
    rw [unprotectPayload, if_neg h]

/-- What is recovered from a command with a MAC depends on the keys and the level alone. -/
theorem recover_protect (hkeys : mirror.keys = ch.keys) (hlevel : mirror.level = ch.level)
    (hc : ch.level.cMac = true) : mirror.recover (ch.protect c) = some (delivered ch.level c) := by
  have hpayload := payload_protect (c := c) hc
  have hlen : (ch.protect c).payload.length = (ch.protectPayload c.payload).length + macLength := by
    rw [hpayload, List.length_append, Block.length_toBytes, macLength]
  have hbody : (ch.protect c).payload.take (ch.protectPayload c.payload).length =
      ch.protectPayload c.payload := by
    rw [hpayload, List.take_left]
  have hplain : mirror.unprotectPayload (ch.protectPayload c.payload) = some c.payload := by
    rw [← ch.unprotectPayload_protectPayload c.payload, unprotectPayload, unprotectPayload,
      hlevel, hkeys]
  rw [recover, hlevel, if_pos hc, if_neg (by omega), hlen, Nat.add_sub_cancel, hbody, hplain,
    Option.map_some, delivered, if_pos hc, protect_of_true hc, unmarkSecure_markSecure]

theorem protect_delivered (hkeys : mirror.keys = ch.keys) (hlevel : mirror.level = ch.level)
    (hc : ch.level.cMac = true) (hmac : mirror.commandMac (delivered ch.level c) = ch.commandMac c) :
    mirror.protect (delivered ch.level c) = ch.protect c := by
  rw [protect, protect, hlevel, if_pos hc, if_pos hc, hmac, payload_delivered, protectPayload,
    protectPayload, hlevel, hkeys, delivered, if_pos hc, markSecure_unmarkSecure]

theorem toBytes_of_toOption (h : c.toBytes.toOption = some bytes) : c.toBytes = .ok bytes := by
  cases hc : c.toBytes with
  | error cause =>
    rw [hc] at h
    cases h
  | ok written =>
    rw [hc] at h
    exact congrArg _ (Option.some.inj h)

/-- Commands that look the same have the same MAC. -/
theorem commandMac_of_toBytes {a b : Command} (hm : mirror.level.cMac = true)
    (hc : ch.level.cMac = true) (ha : (mirror.protect a).toBytes = .ok bytes)
    (hb : (ch.protect b).toBytes = .ok bytes) : mirror.commandMac a = ch.commandMac b := by
  have heq := (Command.ofBytes_of_toBytes ha (protect_data_ne hm)).symm.trans
    (Command.ofBytes_of_toBytes hb (protect_data_ne hc))
  have hdata := congrArg Command.data (Except.ok.inj heq)
  rw [protect_of_true hm, protect_of_true hc] at hdata
  have hlen : (mirror.commandMac a).toBytes.length = (ch.commandMac b).toBytes.length := by
    rw [Block.length_toBytes, Block.length_toBytes]
  exact Block.toBytes_inj.mp (List.append_inj' (Option.some.inj hdata) hlen).2

/-- Where the keys and the level are the same, a command with a MAC is accepted exactly if the MAC of
what is recovered from it is the one that was sent. -/
theorem accept_protect_eq (hkeys : mirror.keys = ch.keys) (hlevel : mirror.level = ch.level)
    (hc : ch.level.cMac = true) (hle : c.payload.length ≤ mirror.maxData)
    (hb : (ch.protect c).toBytes = .ok bytes) :
    mirror.accept bytes =
      if mirror.commandMac (delivered ch.level c) = ch.commandMac c then
        some (delivered ch.level c, mirror.advance (delivered ch.level c))
      else none := by
  have hle' : (delivered ch.level c).payload.length ≤ mirror.maxData := by rwa [payload_delivered]
  rw [accept, Command.ofBytes_of_toBytes hb (protect_data_ne hc)]
  simp only [recover_protect hkeys hlevel hc, wrap_of_le hle']
  refine if_congr ⟨fun hwrite => ?_, fun hmac => ?_⟩ rfl rfl
  · exact commandMac_of_toBytes (by rw [hlevel, hc]) hc (toBytes_of_toOption hwrite) hb
  · rw [protect_delivered hkeys hlevel hc hmac, hb]
    rfl

/-- The card accepts a readable command.  Without a MAC it is told apart by its bytes alone, and a
data field that is there has to have some. -/
theorem Mirrors.accept_protect (h : Mirrors ch mirror) (hle : c.payload.length ≤ ch.maxData)
    (hr : Readable ch.options ch.level c) (hd : ch.level.cMac = false → c.data ≠ some [])
    (hb : (ch.protect c).toBytes = .ok bytes) :
    ∃ next, mirror.accept bytes = some (delivered ch.level c, next) ∧
      Mirrors (ch.advance c) next := by
  have hle' : c.payload.length ≤ mirror.maxData := Nat.le_trans hle h.maxData
  refine ⟨mirror.advance (delivered ch.level c), ?_,
    h.advance fun hc => h.commandMac (macInput_delivered hc hr)⟩
  cases hc : ch.level.cMac with
  | false =>
    have hplain : delivered ch.level c = c := if_neg (by simp [hc])
    have hrecover : mirror.recover c = some c := by
      rw [recover, h.level, if_neg (by simp [hc])]
    rw [protect_of_false hc] at hb
    rw [hplain, accept, Command.ofBytes_of_toBytes hb (hd hc)]
    simp only [hrecover, wrap_of_le hle']
    rw [protect_of_false (h.level ▸ hc), hb]
    exact if_pos rfl
  | true =>
    rw [accept_protect_eq h.keys h.level hc hle' hb]
    exact if_pos (h.commandMac (macInput_delivered hc hr))

/-- The card accepts no command that is not readable. -/
theorem Mirrors.accept_protect_of_not_readable (h : Mirrors ch mirror)
    (hle : c.payload.length ≤ ch.maxData) (hr : ¬ Readable ch.options ch.level c)
    (hb : (ch.protect c).toBytes = .ok bytes) : mirror.accept bytes = none := by
  have hc : ch.level.cMac = true := (Classical.not_imp.mp hr).1
  rw [accept_protect_eq h.keys h.level hc (Nat.le_trans hle h.maxData) hb]
  refine if_neg fun hmac => ?_
  rw [commandMac_delivered_iff h.keys h.options hc hr, h.nextInitial, Block.xor_self] at hmac
  exact absurd hmac (by decide)

/-- What a card accepts over a channel with MACs carries the mark. -/
theorem marked_of_accept {raw : List UInt8} {next : Channel} (hc : ch.level.cMac = true)
    (h : ch.accept raw = some (c, next)) : ∃ cla rest, raw = markSecure cla :: rest := by
  unfold accept at h
  split at h
  · cases h
  split at h
  · cases h
  rename_i plain _
  by_cases hle : plain.payload.length ≤ ch.maxData
  · rw [wrap_of_le hle] at h
    simp only at h
    split at h
    · rename_i hwrite
      have hbytes := toBytes_of_toOption hwrite
      unfold Command.toBytes at hbytes
      split at hbytes
      · rw [protect_of_true hc] at hbytes
        exact ⟨plain.cla, _, (Except.ok.inj hbytes).symm⟩
      · cases hbytes
    · cases h
  · rw [wrap_of_lt (Nat.lt_of_not_le hle)] at h
    cases h

/-! ### Responses -/

/-- The host unwraps the response that the card protected. -/
theorem Mirrors.receive_answer (h : Mirrors ch mirror) (hlast : ch.level.rMac = true →
    ch.lastCommand ≠ none) (r : Response) :
    ∃ next, ch.receive (.ok (mirror.answer r).1.toBytes) = (.ok r, next) ∧
      Mirrors next (mirror.answer r).2 := by
  rw [receive, Response.ofBytes_toBytes, answer, h.level]
  by_cases hc : ch.level.rMac = true
  · obtain ⟨last, hl⟩ := Option.ne_none_iff_exists'.mp (hlast hc)
    have hmac : mirror.responseMac last r.payload r.status =
        ch.responseMac last r.payload r.status := by
      rw [responseMac, responseMac, h.keys, h.responseIcv]
    have hsign : mirror.sign last r = ch.sign last r := by rw [sign, sign, hmac]
    simp only [if_pos hc, h.lastCommand, hl, Option.getD_some, hsign, unwrap_sign hc hl]
    exact ⟨_, rfl, h.keys, h.options, rfl, h.icv, hmac, rfl, h.maxData⟩
  · simp only [if_neg hc, unwrap]
    exact ⟨ch, rfl, h⟩

end CardChannel.Channel
