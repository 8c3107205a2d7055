import CardChannel.Proofs.Recovery
import CardChannel.Proofs.Channel.Calls

/-! What a receiver gets out of a command with a MAC.  `Conveys` lists it: the command is read back
from its bytes as it was written, the header is told from the mark, and the data from the MAC at
their end and from their encryption.  Every command that a channel accepts is conveyed, in every
state of the channel: `wrap_conveys`. -/

namespace CardChannel.Channel

/-- All of `c` can be got back from `w`, and its data end in `icv`. -/
structure Conveys (key : SessionKey) (level : SecurityLevel) (c w : Command)
    (icv : Option Block) : Prop where
  readable : ∃ bytes, w.toBytes = .ok bytes ∧ Command.ofBytes bytes = .ok w
  cla : w.cla = c.cla ||| 0x04
  ins : w.ins = c.ins
  p1 : w.p1 = c.p1
  p2 : w.p2 = c.p2
  le : w.le = c.le
  data : ∃ body mac, w.data = some (body ++ mac.toBytes) ∧ icv = some mac ∧
    (level.cDecryption = false ∨ c.payload = [] → body = c.payload) ∧
    (level.cDecryption = true → c.payload ≠ [] → key.decryptPadded body = .ok c.payload)

variable {ch new : Channel} {keys : SessionKeys} {options : Options} {level : SecurityLevel}
  {seed : Option Block} {max : Nat}

theorem protectPayload_eq_self {payload : List UInt8}
    (h : ch.level.cDecryption = false ∨ payload = []) : ch.protectPayload payload = payload := by
  rw [protectPayload, if_neg]
  rintro ⟨hencrypt, hne⟩
  rcases h with hplain | hempty
  · rw [hplain] at hencrypt
    cases hencrypt
  · exact hne hempty

theorem decryptPadded_protectPayload {payload : List UInt8} (h : ch.level.cDecryption = true)
    (hne : payload ≠ []) :
    ch.keys.enc.decryptPadded (ch.protectPayload payload) = .ok payload := by
  rw [protectPayload, if_pos ⟨h, hne⟩, SessionKey.decryptPadded_encryptPadded]

theorem conveys_protect (hf : ch.Fits) (hmac : ch.level.cMac = true) {c : Command}
    (hle : c.payload.length ≤ ch.maxData) :
    Conveys ch.keys.enc ch.level c (ch.protect c) (ch.advance c).icv := by
  obtain ⟨bytes, hb⟩ := hf.exists_toBytes hle
  have hread := Command.ofBytes_of_toBytes hb (protect_data_ne hmac)
  rw [protect_of_true hmac] at hb hread ⊢
  rw [icv_advance, if_pos hmac]
  exact {
    readable := ⟨bytes, hb, hread⟩
    cla := rfl
    ins := rfl
    p1 := rfl
    p2 := rfl
    le := rfl
    data := ⟨ch.protectPayload c.payload, ch.commandMac c, rfl, rfl, protectPayload_eq_self,
      decryptPadded_protectPayload⟩ }

/-- A channel that was created with command MACs accepts the commands that fit, whatever chaining
values it holds by then, and what it makes of them conveys them. -/
theorem wrap_conveys (created : create keys options level seed max = .ok new)
    (same : Continues new ch) (hmac : level.cMac = true) (c : Command) :
    ((∃ w next, ch.wrap c = (.ok w, next)) ↔ c.payload.length ≤ ch.maxData) ∧
    ∀ w next, ch.wrap c = (.ok w, next) → Conveys keys.enc level c w next.icv := by
  have hfresh := fresh_of_create created
  have hf := same.fits hfresh.fits
  obtain rfl : ch.keys = keys := same.keys.trans hfresh.keys
  obtain rfl : ch.level = level := same.level.trans hfresh.level
  by_cases hle : c.payload.length ≤ ch.maxData
  · rw [wrap_of_le hle]
    refine ⟨⟨fun _ => hle, fun _ => ⟨_, _, rfl⟩⟩, ?_⟩
    rintro w next hwrap
    cases hwrap
    exact conveys_protect hf hmac hle
  · rw [wrap_of_lt (Nat.lt_of_not_le hle)]
    refine ⟨⟨?_, fun h => absurd h hle⟩, ?_⟩
    · rintro ⟨w, next, hwrap⟩
      cases hwrap
    · rintro w next hwrap
      cases hwrap

def sampleUnseeded : Channel := { sample with icv := none, responseIcv := .zero }

/-- The recorded command, on a channel that was created without a seed and holds one by now. -/
theorem wrap_conveys_sample :
    create sampleKeys .default sampleLevel none 255 = .ok sampleUnseeded ∧
    Continues sampleUnseeded sample ∧ sampleLevel.cMac = true ∧
    sample.wrap sampleCommand = (.ok (sampleWrapped sampleMac), sampleSent) ∧
    Conveys sampleKeys.enc sampleLevel sampleCommand (sampleWrapped sampleMac)
      (some sampleMac) := by
  have created : create sampleKeys .default sampleLevel none 255 = .ok sampleUnseeded := rfl
  have same : Continues sampleUnseeded sample := ⟨rfl, rfl, rfl, rfl⟩
  have hconveys := (wrap_conveys created same rfl sampleCommand).2 _ _ wrap_sample
  exact ⟨created, same, rfl, wrap_sample, hconveys⟩

end CardChannel.Channel
