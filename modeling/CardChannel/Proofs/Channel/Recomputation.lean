import CardChannel.Proofs.Channel.Divergence

/-! What the MAC of a command depends on beside the chaining values.  It covers the header, the
length and the plain data, and all but one bit of these can be told from the command as it is sent:
the mark in the class byte, which every command with a MAC carries.  A MAC that is taken before the
class byte is marked covers that bit as it was given, so two commands that differ in nothing else are
sent alike but for their MACs.  In every other case the MAC follows from what is sent, and a receiver
in the same state can compute it: `mac_of_sent_iff`. -/

namespace CardChannel

namespace Command

/-- The data before the last eight bytes. -/
def body (w : Command) : List UInt8 := w.payload.take (w.payload.length - 8)

/-- The last eight bytes of the data. -/
def tag (w : Command) : List UInt8 := w.payload.drop (w.payload.length - 8)

/-- The two commands differ in the last eight bytes of their data at most. -/
structure SameButTag (w w' : Command) : Prop where
  cla : w.cla = w'.cla
  ins : w.ins = w'.ins
  p1 : w.p1 = w'.p1
  p2 : w.p2 = w'.p2
  le : w.le = w'.le
  body : w.body = w'.body

end Command

namespace Channel

variable {ch : Channel} {c c' : Command}

/-- The MAC that a receiver in this state computes from what it received: it takes the MAC off,
decrypts the data, clears the mark and signs the command that it has then. -/
def recompute (ch : Channel) (received : Command) : Option Block :=
  (ch.recover received).map ch.commandMac

/-! ### What is sent -/

theorem length_payload_protect (hmac : ch.level.cMac = true) :
    (ch.protect c).payload.length - 8 = (ch.protectPayload c.payload).length := by
  rw [payload_protect hmac, List.length_append, Block.length_toBytes, Nat.add_sub_cancel]

theorem body_protect (hmac : ch.level.cMac = true) :
    (ch.protect c).body = ch.protectPayload c.payload := by
  rw [Command.body, length_payload_protect hmac, payload_protect hmac, List.take_left]

theorem tag_protect (hmac : ch.level.cMac = true) :
    (ch.protect c).tag = (ch.commandMac c).toBytes := by
  rw [Command.tag, length_payload_protect hmac, payload_protect hmac, List.drop_left]

/-- Encrypted or not, the payload can be told from what travels. -/
theorem protectPayload_inj {a b : List UInt8} :
    ch.protectPayload a = ch.protectPayload b ↔ a = b := by
  refine ⟨fun h => Option.some.inj ?_, congrArg ch.protectPayload⟩
  rw [← ch.unprotectPayload_protectPayload a, h, ch.unprotectPayload_protectPayload]

/-! ### What is signed -/

/-- Two commands that are the same once they are marked. -/
structure SameMarked (c c' : Command) : Prop where
  cla : markSecure c.cla = markSecure c'.cla
  ins : c.ins = c'.ins
  p1 : c.p1 = c'.p1
  p2 : c.p2 = c'.p2
  payload : c.payload = c'.payload

/-- Only a MAC that is taken before the mark is set can tell whether it was there. -/
theorem SameMarked.commandMac_iff (h : SameMarked c c') :
    ch.commandMac c = ch.commandMac c' ↔
      (ch.options.macOnUnmodified = true → c.cla = c'.cla) := by
  rw [commandMac, commandMac, macInput_eq, macInput_eq, h.ins, h.p1, h.p2, h.payload,
    SessionKey.mac_head_inj]
  cases ch.options.macOnUnmodified with
  | true => simp
  | false => simp [h.cla]

theorem sameMarked_of_sameButTag (hmac : ch.level.cMac = true)
    (h : (ch.protect c).SameButTag (ch.protect c')) : SameMarked c c' := by
  have hbody := h.body
  rw [body_protect hmac, body_protect hmac, protectPayload_inj] at hbody
  obtain ⟨cla, ins, p1, p2, -, -⟩ := h
  rw [protect_of_true hmac, protect_of_true hmac] at cla ins p1 p2
  exact ⟨cla, ins, p1, p2, hbody⟩

theorem sameButTag_of_sameMarked (hmac : ch.level.cMac = true) (h : SameMarked c c')
    (hle : c.le = c'.le) : (ch.protect c).SameButTag (ch.protect c') := by
  have hbody : (ch.protect c).body = (ch.protect c').body := by
    rw [body_protect hmac, body_protect hmac, h.payload]
  rw [protect_of_true hmac, protect_of_true hmac] at hbody ⊢
  exact ⟨h.cla, h.ins, h.p1, h.p2, hle, hbody⟩

theorem sameMarked_delivered {level : SecurityLevel} (hmac : level.cMac = true) (c : Command) :
    SameMarked (delivered level c) c := by
  have hpayload := payload_delivered level c
  rw [delivered, if_pos hmac] at hpayload ⊢
  exact ⟨markSecure_unmarkSecure c.cla, rfl, rfl, rfl, hpayload⟩

theorem unmarkSecure_eq_self_iff (cla : UInt8) : unmarkSecure cla = cla ↔ cla &&& 0x04 = 0 :=
  forall_class (p := fun cla => unmarkSecure cla = cla ↔ cla &&& 0x04 = 0) (by decide +kernel) cla

theorem cla_delivered {level : SecurityLevel} (hmac : level.cMac = true) (c : Command) :
    (delivered level c).cla = unmarkSecure c.cla := by
  rw [delivered, if_pos hmac]

theorem recompute_protect (hmac : ch.level.cMac = true) (c : Command) :
    ch.recompute (ch.protect c) = some (ch.commandMac (delivered ch.level c)) := by
  rw [recompute, recover_protect rfl rfl hmac, Option.map_some]

/-- Two commands that a channel accepts in one state, and that are sent alike but for their MACs,
have the same MAC exactly if the MAC is taken with the mark set or they were given with the same
class byte.  A receiver in that state always gets a MAC out of a command, and it is the one that was
sent exactly if the MAC is taken with the mark set or the command was given without it. -/
theorem mac_of_sent_iff (ch : Channel) (hmac : ch.level.cMac = true) {c w : Command}
    {next : Channel} (sent : ch.wrap c = (.ok w, next)) :
    (∀ c' w' next', ch.wrap c' = (.ok w', next') → w.SameButTag w' →
      (w.tag = w'.tag ↔ (ch.options.has 0x02 = true → c.cla = c'.cla))) ∧
    ∃ mac, ch.recompute w = some mac ∧
      (w.tag = mac.toBytes ↔ (ch.options.has 0x02 = true → c.cla &&& 0x04 = 0)) := by
  rw [wrap_of_le (le_of_wrap (congrArg Prod.fst sent))] at sent
  cases sent
  refine ⟨fun c' w' next' sent' hsame => ?_, _, recompute_protect hmac c, ?_⟩
  · rw [wrap_of_le (le_of_wrap (congrArg Prod.fst sent'))] at sent'
    cases sent'
    rw [tag_protect hmac, tag_protect hmac, Block.toBytes_inj]
    exact (sameMarked_of_sameButTag hmac hsame).commandMac_iff
  · rw [tag_protect hmac, Block.toBytes_inj, eq_comm, (sameMarked_delivered hmac c).commandMac_iff,
      cla_delivered hmac, unmarkSecure_eq_self_iff]
    rfl

/-- The recorded command, given with the mark. -/
def sampleMarked : Command := { sampleCommand with cla := 0x84 }

theorem sameMarked_sample : SameMarked sampleCommand sampleMarked := ⟨rfl, rfl, rfl, rfl, rfl⟩

/-- With the usual options the mark makes no difference, and the receiver agrees. -/
theorem mac_of_sent_iff_sample :
    sample.level.cMac = true ∧
    sample.wrap sampleCommand = (.ok (sampleWrapped sampleMac), sampleSent) ∧
    (∃ w' next', sample.wrap sampleMarked = (.ok w', next') ∧
      (sampleWrapped sampleMac).SameButTag w' ∧ (sampleWrapped sampleMac).tag = w'.tag) ∧
    ∃ mac, sample.recompute (sampleWrapped sampleMac) = some mac ∧
      (sampleWrapped sampleMac).tag = mac.toBytes := by
  have hmac : sample.level.cMac = true := rfl
  have hmarked : sample.wrap sampleMarked = (.ok (sample.protect sampleMarked), _) :=
    wrap_of_le (by decide)
  have hprotect : sample.protect sampleCommand = sampleWrapped sampleMac :=
    Except.ok.inj (congrArg Prod.fst ((wrap_of_le (by decide)).symm.trans wrap_sample))
  have hsame := sameButTag_of_sameMarked hmac sameMarked_sample rfl
  rw [hprotect] at hsame
  have hoption : ¬ sample.options.has 0x02 = true := by decide
  obtain ⟨htags, mac, hrecomputed, htag⟩ := mac_of_sent_iff sample hmac wrap_sample
  exact ⟨hmac, wrap_sample,
    ⟨_, _, hmarked, hsame, (htags _ _ _ hmarked hsame).mpr fun h => absurd h hoption⟩,
    mac, hrecomputed, htag.mpr fun h => absurd h hoption⟩

/-- The channel of a card that takes MACs before the mark is set. -/
def sampleUnmodified : Channel := { sample with options := ⟨0x17⟩ }

/-- Two commands that are sent alike but for their MACs, from one state. -/
theorem marked_sent_alike :
    sampleUnmodified.level.cMac = true ∧
    (sampleUnmodified.wrap sampleCommand).1 = .ok (sampleWrapped ⟨0x68C992AE02BF2AC8⟩) ∧
    (sampleUnmodified.wrap sampleMarked).1 = .ok (sampleWrapped ⟨0x8D46EF6A56E214B9⟩) ∧
    (sampleWrapped ⟨0x68C992AE02BF2AC8⟩).SameButTag (sampleWrapped ⟨0x8D46EF6A56E214B9⟩) ∧
    (sampleWrapped ⟨0x68C992AE02BF2AC8⟩).tag ≠ (sampleWrapped ⟨0x8D46EF6A56E214B9⟩).tag := by
  have hbody : sampleUnmodified.protectPayload sampleCommand.payload = sampleBody :=
    protectPayload_sample
  have hplain : sampleUnmodified.commandMac sampleCommand = ⟨0x68C992AE02BF2AC8⟩ := by
    decide +kernel
  have hmarked : sampleUnmodified.commandMac sampleMarked = ⟨0x8D46EF6A56E214B9⟩ := by
    decide +kernel
  refine ⟨rfl, ?_, ?_, ⟨rfl, rfl, rfl, rfl, rfl, rfl⟩, by decide⟩
  · rw [wrap_of_le (by decide), protect_of_true rfl, hplain, hbody]
    rfl
  · have hpayload : sampleMarked.payload = sampleCommand.payload := rfl
    rw [wrap_of_le (by decide), protect_of_true rfl, hmarked, hpayload, hbody]
    rfl

end Channel

end CardChannel
