import CardChannel.Proofs.Channel.Calls

/-! The chain of command MACs.  `CommandChain` is the rule: each MAC covers one command and starts
from the MAC before it.  Whatever calls are made on a channel, in any order, the commands that it
accepts follow the rule, and nothing else moves the chain: `commands_chained`. -/

namespace CardChannel.Channel

/-- What the MAC over a command covers: the command as it was given, or with the class byte and the
length that it has on the wire.  The data are the plain ones, and the length byte holds all of the
length. -/
inductive Signed (options : Options) (c : Command) : List UInt8 → Prop where
  | unmodified {length : UInt8} (option : options.has 0x02 = true)
      (fits : length.toNat = c.payload.length) :
      Signed options c (c.cla :: c.ins :: c.p1 :: c.p2 :: length :: c.payload)
  | modified {length : UInt8} (option : options.has 0x02 = false)
      (fits : length.toNat = c.payload.length + 8) :
      Signed options c ((c.cla ||| 0x04) :: c.ins :: c.p1 :: c.p2 :: length :: c.payload)

/-- What a MAC starts from: zeros when there is none before it, and else the one before it, which
is encrypted first if the options say so. -/
def chainStart (key : SessionKey) (options : Options) : Option Block → Block
  | none => .zero
  | some icv => if options.has 0x10 then key.encryptIcv icv else icv

/-- Commands and what was made of them, chained from `seed`, and the last value of the chain. -/
inductive CommandChain (key : SessionKey) (options : Options) (seed : Option Block) :
    List (Command × Command) → Option Block → Prop where
  | start : CommandChain key options seed [] seed
  | link {front : List (Command × Command)} {icv : Option Block} {c w : Command}
      {covered body : List UInt8} {mac : Block} (before : CommandChain key options seed front icv)
      (signed : Signed options c covered)
      (computed : mac = key.mac (chainStart key options icv) covered)
      (carried : w.data = some (body ++ mac.toBytes)) :
      CommandChain key options seed (front ++ [(c, w)]) (some mac)

variable {ch first new : Channel} {c : Command} {keys : SessionKeys} {options : Options}
  {level : SecurityLevel} {seed : Option Block} {max : Nat}

/-- With command MACs, eight bytes are left for the MAC in every command that is accepted. -/
theorem Fits.length_add_macLength (hf : ch.Fits) (hmac : ch.level.cMac = true)
    (hle : c.payload.length ≤ ch.maxData) : c.payload.length + macLength ≤ maxShortData := by
  have hover : 8 ≤ ch.level.overhead := by
    rw [SecurityLevel.overhead, if_pos hmac]
    split <;> omega
  rw [Fits] at hf
  rw [macLength]
  omega

theorem signed_macInput (hf : ch.Fits) (hmac : ch.level.cMac = true)
    (hle : c.payload.length ≤ ch.maxData) :
    Signed ch.options c (macInput ch.options c) := by
  have hshort := hf.length_add_macLength hmac hle
  have hlength : c.payload.length + 8 < UInt8.size := Nat.lt_succ_of_le hshort
  rw [macInput]
  cases hoption : ch.options.macOnUnmodified with
  | true => exact .unmodified hoption (UInt8.toNat_ofNat_of_lt' (Nat.lt_of_add_right_lt hlength))
  | false => exact .modified hoption (UInt8.toNat_ofNat_of_lt' hlength)

theorem nextInitial_eq (ch : Channel) :
    ch.nextInitial = chainStart ch.keys.mac ch.options ch.icv := by
  rw [nextInitial]
  cases ch.icv <;> rfl

/-- One call adds one link, or leaves the chain as it is. -/
theorem CommandChain.step {entries : List Entry} {call : Call} {entry : Entry} {next : Channel}
    (h : CommandChain ch.keys.mac ch.options seed (wrapped entries) ch.icv) (hf : ch.Fits)
    (hmac : ch.level.cMac = true) (hp : Performed ch call entry next) :
    CommandChain ch.keys.mac ch.options seed (wrapped (entries ++ [entry])) next.icv := by
  cases hp with
  | @protects c hle =>
    rw [wrapped_append, icv_advance, if_pos hmac, protect_of_true hmac]
    exact h.link (signed_macInput hf hmac hle) (by rw [commandMac, nextInitial_eq]) rfl
  | _ => rwa [wrapped_concat rfl]

theorem chained_log (hf : first.Fits) (hmac : first.level.cMac = true) (calls : List Call) :
    CommandChain first.keys.mac first.options first.icv (wrapped (first.log calls))
      (first.after calls).icv := by
  refine run_induction (motive := fun entries ch =>
    CommandChain first.keys.mac first.options first.icv (wrapped entries) ch.icv) .start ?_ calls
  intro entries ch call entry next hcont hchain hp
  rw [← hcont.keys, ← hcont.options] at hchain ⊢
  exact hchain.step (hcont.fits hf) (hcont.level ▸ hmac) hp

/-- Whatever calls are made on a new channel, the commands that it accepts are chained from its
seed, and they are all those that fit.  No other call moves the chain. -/
theorem commands_chained (created : create keys options level seed max = .ok new)
    (hmac : level.cMac = true) (calls : List Call) :
    CommandChain keys.mac options seed (wrapped (new.log calls)) (new.after calls).icv ∧
    (wrapped (new.log calls)).map Prod.fst =
      (calls.filterMap Call.command?).filter (fun c => c.payload.length ≤ new.maxData) ∧
    ∀ call, ((new.after calls).perform call).1.command? = none →
      ((new.after calls).perform call).2.icv = (new.after calls).icv := by
  have hfresh := fresh_of_create created
  refine ⟨?_, new.wrapped_log calls, fun call => ((new.after calls).performed call).icv_eq⟩
  rw [← hfresh.keys, ← hfresh.options, ← hfresh.icv]
  exact chained_log hfresh.fits (by rw [hfresh.level, hmac]) calls

/-- The same command twice.  The calls that are rejected before, between and after do not count. -/
theorem commands_chained_sample :
    create sampleKeys .default sampleLevel (some sampleSeed) 255 = .ok sample ∧
    sampleLevel.cMac = true ∧
    CommandChain sampleKeys.mac .default (some sampleSeed)
      [(sampleCommand, sampleWrapped sampleMac),
        (sampleCommand, sampleWrapped ⟨0x3FACADB1CEC8226D⟩)] (some ⟨0x3FACADB1CEC8226D⟩) := by
  have hmac : sampleSent.commandMac sampleCommand = ⟨0x3FACADB1CEC8226D⟩ := by decide +kernel
  have hbody : sampleSent.protectPayload sampleCommand.payload = sampleBody :=
    protectPayload_sample
  have hicv : (sampleSent.advance sampleCommand).icv = some ⟨0x3FACADB1CEC8226D⟩ := by
    rw [icv_advance, hmac]
    rfl
  have hchained := (commands_chained create_sample rfl (sampleCalls ++ [.wrap sampleCommand])).1
  have hwrap : sampleSent.wrap sampleCommand =
      (.ok (sampleWrapped ⟨0x3FACADB1CEC8226D⟩), sampleSent.advance sampleCommand) := by
    rw [wrap_of_le (by decide), protect_of_true rfl, hmac, hbody]
    rfl
  rw [after_sampleCalls, log_sampleCalls] at hchained
  simp only [after, log, perform, hwrap, hicv] at hchained
  exact ⟨create_sample, rfl, hchained⟩

end CardChannel.Channel
