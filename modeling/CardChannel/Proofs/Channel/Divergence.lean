import Mathlib.Data.List.Forall2
import CardChannel.Proofs.Channel.Calls
import CardChannel.Proofs.Mirror

/-! Chains that have come apart.  Two channels with the same keys whose chaining values differ give
every command two different MACs, and so their chaining values differ again: `Diverged` is kept by
every command.  One byte of one command is enough to set two chains apart, and from then on the card
at the other end rejects what it receives: `chains_stay_apart`.  There is one exception.  A MAC that
is taken before the class byte is marked covers a mark that was there already, and the card, which
cannot see it, may be `Mistaken`; then the chains even meet again (`chains_meet_again`). -/

namespace CardChannel

/-- The command with one byte after its class byte replaced. -/
inductive Command.Altered (c : Command) : Command → Prop where
  | ins {byte : UInt8} (differs : byte ≠ c.ins) : Altered c { c with ins := byte }
  | p1 {byte : UInt8} (differs : byte ≠ c.p1) : Altered c { c with p1 := byte }
  | p2 {byte : UInt8} (differs : byte ≠ c.p2) : Altered c { c with p2 := byte }
  | data {front back : List UInt8} {old byte : UInt8} (held : c.data = some (front ++ old :: back))
      (differs : byte ≠ old) : Altered c { c with data := some (front ++ byte :: back) }

theorem Command.Altered.length_payload {c c' : Command} (h : c.Altered c') :
    c'.payload.length = c.payload.length := by
  cases h with
  | data held => simp [payload, held]
  | _ => rfl

theorem SessionKey.encryptIcv_inj (key : SessionKey) {a b : Block} :
    key.encryptIcv a = key.encryptIcv b ↔ a = b := Des.encrypt_inj

namespace Channel

/-- The commands one after the other, each with what it gives and the chaining value after it. -/
def wrapAll (ch : Channel) : List Command → List (Except Error Command × Option Block)
  | [] => []
  | c :: rest => ((ch.wrap c).1, (ch.wrap c).2.icv) :: (ch.wrap c).2.wrapAll rest

/-- What two channels give for two commands: both refuse, or both send and the MACs differ.  The
chaining values differ in either case, and after a command was sent they are the MACs. -/
inductive Apart : Except Error Command × Option Block → Except Error Command × Option Block →
    Prop where
  | refused {error : Error} {icv icv' : Block} (icvs : icv ≠ icv') :
      Apart (.error error, some icv) (.error error, some icv')
  | sent {w w' : Command} {mac mac' : Block} (ends : w.EndsIn mac) (ends' : w'.EndsIn mac')
      (macs : mac ≠ mac') : Apart (.ok w, some mac) (.ok w', some mac')

/-- Two channels that differ in their chaining values only, and in that of the commands for sure. -/
structure Diverged (a b : Channel) : Prop where
  alike : Continues a b
  icvs : ∃ icv icv', a.icv = some icv ∧ b.icv = some icv' ∧ icv ≠ icv'

/-- The receiver takes a command for another: the mark was there before the command was protected,
the MAC covers it, and the values that the MACs start from differ in this one bit. -/
structure Mistaken (a b : Channel) (c : Command) : Prop where
  unmodified : a.options.macOnUnmodified = true
  marked : unmarkSecure c.cla ≠ c.cla
  initials : b.nextInitial ^^^ a.nextInitial = Block.ofHead 0x04

variable {a b : Channel} {c c' : Command} {icv icv' : Block}

/-! ### One MAC -/

theorem nextInitial_inj (alike : Continues a b) (ha : a.icv = some icv) (hb : b.icv = some icv') :
    a.nextInitial = b.nextInitial ↔ icv = icv' := by
  rw [nextInitial, nextInitial, ha, hb, alike.keys, alike.options]
  simp only
  split
  · exact a.keys.mac.encryptIcv_inj
  · rfl

theorem commandMac_initial_inj (alike : Continues a b)
    (hinput : macInput a.options c = macInput b.options c') :
    a.commandMac c = b.commandMac c' ↔ a.nextInitial = b.nextInitial := by
  rw [commandMac, commandMac, alike.keys, hinput, SessionKey.mac_initial_inj]

theorem macInput_eq (options : Options) (c : Command) :
    macInput options c =
      (if options.macOnUnmodified then c.cla else markSecure c.cla) :: c.ins :: c.p1 :: c.p2 ::
        (if options.macOnUnmodified then UInt8.ofNat c.payload.length
          else UInt8.ofNat (c.payload.length + macLength)) :: c.payload := by
  rw [macInput]
  split <;> rfl

/-- The MAC covers every byte after the class byte. -/
theorem macInput_altered (options : Options) (h : c.Altered c') :
    ∃ front back old byte, old ≠ byte ∧ macInput options c = front ++ old :: back ∧
      macInput options c' = front ++ byte :: back := by
  rw [macInput_eq, macInput_eq, h.length_payload]
  cases h with
  | ins differs => exact ⟨[_], _, _, _, differs.symm, rfl, rfl⟩
  | p1 differs => exact ⟨[_, _], _, _, _, differs.symm, rfl, rfl⟩
  | p2 differs => exact ⟨[_, _, _], _, _, _, differs.symm, rfl, rfl⟩
  | @data front back old byte held differs =>
    refine ⟨_ :: _ :: _ :: _ :: _ :: front, back, old, byte, differs.symm, ?_, rfl⟩
    simp only [Command.payload, held, Option.getD_some, List.cons_append]

theorem commandMac_altered (ch : Channel) (h : c.Altered c') :
    ch.commandMac c ≠ ch.commandMac c' := by
  obtain ⟨front, back, old, byte, hne, hold, hbyte⟩ := macInput_altered ch.options h
  rw [commandMac, commandMac, hold, hbyte, Ne, SessionKey.mac_byte_inj]
  exact hne

/-! ### One command -/

theorem continues_wrap (ch : Channel) (c : Command) : Continues ch (ch.wrap c).2 :=
  (ch.performed_wrap c).continues

theorem le_of_wrap {w : Command} (h : (a.wrap c).1 = .ok w) : c.payload.length ≤ a.maxData := by
  refine Nat.le_of_not_lt fun hlt => ?_
  rw [wrap_of_lt hlt] at h
  cases h

/-- Where two MACs differ, the chains are apart. -/
theorem apart_of_commandMac_ne (alike : Continues a b) (hmac : a.level.cMac = true)
    (hle : c.payload.length ≤ a.maxData) (hle' : c'.payload.length ≤ a.maxData)
    (hne : a.commandMac c ≠ b.commandMac c') :
    Apart ((a.wrap c).1, (a.wrap c).2.icv) ((b.wrap c').1, (b.wrap c').2.icv) ∧
      Diverged (a.wrap c).2 (b.wrap c').2 := by
  have hmac' : b.level.cMac = true := by rw [alike.level, hmac]
  have halike := ((a.continues_wrap c).symm.trans alike).trans (b.continues_wrap c')
  rw [wrap_of_le hle, wrap_of_le (alike.maxData ▸ hle')] at halike ⊢
  simp only [icv_advance, hmac, hmac', if_true]
  refine ⟨.sent (a.endsIn_protect hmac c) (b.endsIn_protect hmac' c') hne, halike, ?_⟩
  simp only [icv_advance, hmac, hmac', if_true]
  exact ⟨_, _, rfl, rfl, hne⟩

theorem Diverged.commandMac_ne (h : Diverged a b)
    (hinput : macInput a.options c = macInput b.options c') :
    a.commandMac c ≠ b.commandMac c' := by
  obtain ⟨icv, icv', ha, hb, hne⟩ := h.icvs
  rw [Ne, commandMac_initial_inj h.alike hinput, nextInitial_inj h.alike ha hb]
  exact hne

/-- Chains that have come apart stay so, whatever the next command is. -/
theorem Diverged.step (h : Diverged a b) (hmac : a.level.cMac = true) (c : Command) :
    Apart ((a.wrap c).1, (a.wrap c).2.icv) ((b.wrap c).1, (b.wrap c).2.icv) ∧
      Diverged (a.wrap c).2 (b.wrap c).2 := by
  by_cases hle : c.payload.length ≤ a.maxData
  · exact apart_of_commandMac_ne h.alike hmac hle hle (h.commandMac_ne (by rw [h.alike.options]))
  · have hlt : a.maxData < c.payload.length := Nat.lt_of_not_le hle
    obtain ⟨icv, icv', ha, hb, hne⟩ := h.icvs
    rw [wrap_of_lt hlt, wrap_of_lt (h.alike.maxData ▸ hlt), ha, hb, h.alike.maxData]
    exact ⟨.refused hne, h⟩

/-! ### All commands -/

theorem Diverged.run (h : Diverged a b) (hmac : a.level.cMac = true) (commands : List Command) :
    List.Forall₂ Apart (a.wrapAll commands) (b.wrapAll commands) := by
  induction commands generalizing a b with
  | nil => exact .nil
  | cons c rest ih =>
    obtain ⟨hapart, hnext⟩ := h.step hmac c
    exact .cons hapart (ih hnext (by rw [(a.continues_wrap c).level, hmac]))

theorem length_wrapAll (ch : Channel) (commands : List Command) :
    (ch.wrapAll commands).length = commands.length := by
  induction commands generalizing ch with
  | nil => rfl
  | cons c rest ih => rw [wrapAll, List.length_cons, List.length_cons, ih]

theorem wrapAll_append (ch : Channel) (front back : List Command) :
    ch.wrapAll (front ++ back) =
      ch.wrapAll front ++ (ch.after (front.map .wrap)).wrapAll back := by
  induction front generalizing ch with
  | nil => rfl
  | cons c rest ih =>
    rw [List.cons_append, wrapAll, wrapAll, ih, List.map_cons, after, List.cons_append]
    rfl

/-- From an altered command on, two runs of one channel are apart. -/
theorem fork_altered (ch : Channel) (hmac : ch.level.cMac = true) (h : c.Altered c')
    (hle : c.payload.length ≤ ch.maxData) (back : List Command) :
    List.Forall₂ Apart (ch.wrapAll (c :: back)) (ch.wrapAll (c' :: back)) := by
  obtain ⟨hapart, hnext⟩ := apart_of_commandMac_ne (.refl ch) hmac hle
    (by rwa [h.length_payload]) (ch.commandMac_altered h)
  exact .cons hapart (hnext.run (by rw [(ch.continues_wrap c).level, hmac]) back)

/-! ### The other end -/

/-- The receiver, told the command, expects other bytes than those that arrive. -/
theorem Diverged.toBytes_ne (h : Diverged a b) (hmac : a.level.cMac = true) {bytes : List UInt8}
    (hb : (a.protect c).toBytes = .ok bytes) : (b.protect c).toBytes ≠ .ok bytes := by
  intro hsame
  have hmac' : b.level.cMac = true := by rw [h.alike.level, hmac]
  exact h.commandMac_ne (by rw [h.alike.options]) (commandMac_of_toBytes hmac hmac' hb hsame)

theorem Diverged.mistaken_iff (h : Diverged a b) (hmac : a.level.cMac = true) :
    Mistaken a b c ↔ b.commandMac (delivered a.level c) = a.commandMac c := by
  by_cases hr : Readable a.options a.level c
  · have hinput : macInput b.options (delivered a.level c) = macInput a.options c := by
      rw [h.alike.options, macInput_delivered hmac hr]
    exact iff_of_false (fun hm => hm.marked (hr hmac hm.unmodified))
      fun hsame => h.commandMac_ne hinput.symm hsame.symm
  · obtain ⟨-, hunread⟩ := Classical.not_imp.mp hr
    obtain ⟨hunmodified, hmarked⟩ := Classical.not_imp.mp hunread
    rw [commandMac_delivered_iff h.alike.keys h.alike.options hmac hr]
    exact ⟨Mistaken.initials, fun hinitials => ⟨hunmodified, hmarked, hinitials⟩⟩

/-- The receiver, left to read the command from the bytes, does not accept it either. -/
theorem Diverged.accept_eq_none_iff (h : Diverged a b) (hmac : a.level.cMac = true)
    (hle : c.payload.length ≤ a.maxData) {bytes : List UInt8}
    (hb : (a.protect c).toBytes = .ok bytes) : b.accept bytes = none ↔ ¬ Mistaken a b c := by
  rw [accept_protect_eq h.alike.keys h.alike.level hmac (h.alike.maxData ▸ hle) hb,
    h.mistaken_iff hmac, ite_eq_right_iff]
  exact ⟨fun hnone hsame => absurd (hnone hsame) (by simp), fun hne hsame => absurd hsame hne⟩

/-- Two channels that are alike but for their chaining values, and hold two different ones for
commands, give every command different MACs and then hold different values again.  So do two runs
of one channel from the first command on that differs in one byte.  Whatever was sent and received,
as long as the values differ the receiver finds another MAC than the one that it computes for the
same command, and does not accept what it receives, unless it is `Mistaken`. -/
theorem chains_stay_apart (alike : Continues a b) (hmac : a.level.cMac = true) :
    (∀ icv icv', a.icv = some icv → b.icv = some icv' → icv ≠ icv' → ∀ commands,
      List.Forall₂ Apart (a.wrapAll commands) (b.wrapAll commands)) ∧
    (∀ front c c' back, c.Altered c' → c.payload.length ≤ a.maxData →
      (a.wrapAll (front ++ c :: back)).take front.length =
        (a.wrapAll (front ++ c' :: back)).take front.length ∧
      List.Forall₂ Apart ((a.wrapAll (front ++ c :: back)).drop front.length)
        ((a.wrapAll (front ++ c' :: back)).drop front.length)) ∧
    ∀ sent received icv icv', (a.after sent).icv = some icv → (b.after received).icv = some icv' →
      icv ≠ icv' → ∀ c w bytes, ((a.after sent).wrap c).1 = .ok w → w.toBytes = .ok bytes →
        (∀ w', ((b.after received).wrap c).1 = .ok w' → w'.toBytes ≠ .ok bytes) ∧
        ((b.after received).accept bytes = none ↔
          ¬ Mistaken (a.after sent) (b.after received) c) := by
  refine ⟨fun icv icv' ha hb hne => Diverged.run ⟨alike, icv, icv', ha, hb, hne⟩ hmac, ?_, ?_⟩
  · intro front c c' back haltered hle
    have hcont := a.continues_after (front.map .wrap)
    have hlength := (a.length_wrapAll front).symm
    rw [wrapAll_append, wrapAll_append, List.take_left' hlength.symm, List.take_left' hlength.symm,
      List.drop_left' hlength.symm, List.drop_left' hlength.symm]
    exact ⟨rfl, fork_altered _ (by rw [hcont.level, hmac]) haltered (by rwa [hcont.maxData]) back⟩
  · intro sent received icv icv' ha hb hne c w bytes hwrap hbytes
    have hsent := a.continues_after sent
    have h : Diverged (a.after sent) (b.after received) :=
      ⟨(hsent.symm.trans alike).trans (b.continues_after received), icv, icv', ha, hb, hne⟩
    have hmac' : (a.after sent).level.cMac = true := by rw [hsent.level, hmac]
    have hle := le_of_wrap hwrap
    rw [wrap_of_le hle] at hwrap
    obtain rfl := Except.ok.inj hwrap
    refine ⟨fun w' hwrap' => ?_, h.accept_eq_none_iff hmac' hle hbytes⟩
    rw [wrap_of_le (le_of_wrap hwrap')] at hwrap'
    obtain rfl := Except.ok.inj hwrap'
    exact h.toBytes_ne hmac' hbytes

/-- A command that a receiver already has is sent to it once more. -/
theorem chains_stay_apart_sample :
    Continues sample sampleSent ∧ sample.level.cMac = true ∧
    List.Forall₂ Apart (sample.wrapAll [sampleCommand, sampleLong])
      (sampleSent.wrapAll [sampleCommand, sampleLong]) ∧
    List.Forall₂ Apart
      ((sample.wrapAll [sampleLong, sampleCommand, sampleCommand]).drop 1)
      ((sample.wrapAll [sampleLong, { sampleCommand with p1 := 0x41 }, sampleCommand]).drop 1) ∧
    ∃ bytes, (sample.wrap sampleCommand).1 = .ok (sampleWrapped sampleMac) ∧
      (sampleWrapped sampleMac).toBytes = .ok bytes ∧ sampleSent.accept bytes = none := by
  have halike : Continues sample sampleSent := ⟨rfl, rfl, rfl, rfl⟩
  have hsees : ¬ Mistaken sample sampleSent sampleCommand :=
    fun hm => absurd hm.unmodified (by decide)
  obtain ⟨hapart, hforked, hreceiver⟩ := chains_stay_apart halike rfl
  refine ⟨halike, rfl, hapart sampleSeed sampleMac rfl rfl (by decide) _,
    (hforked [sampleLong] _ _ _ (.p1 (by decide)) (by decide)).2, _,
    congrArg Prod.fst wrap_sample, rfl, ?_⟩
  exact (hreceiver [] [] sampleSeed sampleMac rfl rfl (by decide) sampleCommand _ _
    (congrArg Prod.fst wrap_sample) rfl).2.mpr hsees

/-- A receiver whose MACs cover the class byte as it was before the mark. -/
def sampleBehind : Channel :=
  ⟨sampleKeys, ⟨0x07⟩, .cMacOnly, 247, some ⟨0x1522334455667788⟩, ⟨0x1522334455667788⟩, none⟩

/-- The MAC of this command differs from what the receiver holds in the bit of the mark. -/
def sampleLost : Command :=
  ⟨0x80, 0xF2, 0x40, 0x00,
    some [0x4F, 0x09, 0xF0, 0x9D, 0x6F, 0x6C, 0xE2, 0x4B, 0xF5, 0x9B, 0x96], none⟩

/-- The sender after the command that did not arrive. -/
def sampleAhead : Channel := { sampleBehind with icv := some ⟨0x1122334455667788⟩ }

def sampleNext : Command := ⟨0x84, 0xF2, 0x40, 0x00, some [0x4F, 0x00], none⟩

def sampleNextMac : Block := ⟨0x0725F05A56742205⟩

def sampleNextSent : Command :=
  ⟨0x84, 0xF2, 0x40, 0x00, some ([0x4F, 0x00] ++ sampleNextMac.toBytes), none⟩

/-- The command as the receiver reads it. -/
def sampleNextRead : Command := { sampleNext with cla := 0x80 }

/-- One command was lost, and the next one has the mark from the start.  The receiver reads it
without, accepts it, and the chaining values are the same again. -/
theorem chains_meet_again :
    create sampleKeys ⟨0x07⟩ .cMacOnly (some ⟨0x1522334455667788⟩) 255 = .ok sampleBehind ∧
    Continues sampleAhead sampleBehind ∧ sampleBehind.level.cMac = true ∧
    (sampleBehind.wrap sampleLost).2 = sampleAhead ∧ sampleAhead.icv ≠ sampleBehind.icv ∧
    sampleAhead.wrap sampleNext =
      (.ok sampleNextSent, { sampleAhead with icv := some sampleNextMac }) ∧
    ∃ bytes, sampleNextSent.toBytes = .ok bytes ∧
      sampleBehind.accept bytes =
        some (sampleNextRead, { sampleBehind with icv := some sampleNextMac }) := by
  have hkeys : sampleBehind.keys = sampleAhead.keys := rfl
  have hlevel : sampleBehind.level = sampleAhead.level := rfl
  have hlost : sampleBehind.commandMac sampleLost = ⟨0x1122334455667788⟩ := by decide +kernel
  have hsent : sampleAhead.commandMac sampleNext = sampleNextMac := by decide +kernel
  have hread : sampleBehind.commandMac sampleNextRead = sampleNextMac := by decide +kernel
  have hdelivered : delivered sampleAhead.level sampleNext = sampleNextRead := by decide
  have hprotect : sampleAhead.protect sampleNext = sampleNextSent := by
    rw [protect_of_true rfl, hsent]
    rfl
  refine ⟨rfl, ⟨rfl, rfl, rfl, rfl⟩, rfl, ?_, by decide, ?_, _, rfl, ?_⟩
  · rw [wrap_of_le (by decide), advance, hlost]
    rfl
  · rw [wrap_of_le (by decide), hprotect, advance, hsent]
    rfl
  · rw [accept_protect_eq hkeys hlevel rfl (by decide) (congrArg Command.toBytes hprotect),
      hdelivered, hread, hsent, if_pos rfl, advance, hread]
    rfl

end Channel

end CardChannel
