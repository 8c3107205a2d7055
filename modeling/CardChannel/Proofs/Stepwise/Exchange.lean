import CardChannel.Proofs.Channel.Replies
import CardChannel.Proofs.Channel.ResponseChain
import CardChannel.Proofs.Stepwise.Atomicity

/-! One exchange on a channel that is written to as it goes.  The channel moves on when a command is
handed over, and what comes back can then no longer undo that: `Exchanged` says of each field what it
holds afterwards.  Only a response that is verified moves the chain of responses, and only a command
that is too long leaves the whole channel as it was: `transmit_exchanges`. -/

namespace CardChannel.Stepwise

/-- A command was handed over as `w`, and `next` is the channel after the reply.  `covered` stands
for the command under the MAC of its response. -/
structure Exchanged (ch : Channel) (covered : List UInt8) (w : Command) (reply : Reply)
    (result : Except Error Response) (next : Channel) : Prop where
  continues : Channel.Continues ch next
  signed : ch.level.cMac = true → ∃ mac, w.EndsIn mac ∧ next.icv = some mac
  unsigned : ch.level.cMac = false → next.icv = ch.icv
  remembered : ch.level.rMac = true → next.lastCommand = some covered
  unremembered : ch.level.rMac = false → next.lastCommand = ch.lastCommand
  ends : ch.Ends covered reply result next.responseIcv

variable {new ch : Channel} {c : Command}

theorem exchanged_receive (ch : Channel) (c : Command) (reply : Reply) :
    Exchanged ch (Channel.remembered c) (ch.protect c) reply ((ch.advance c).receive reply).1
      ((ch.advance c).receive reply).2 := by
  -- The reply does not reach what the command has written.
  have hicv : ((ch.advance c).receive reply).2.icv = _ := Channel.icv_of_received rfl
  have hlast := (ch.advance c).lastCommand_receive reply
  rw [Channel.lastCommand_advance] at hlast
  refine
    { continues := Channel.continues_of_received rfl
      signed := fun hl => ⟨ch.commandMac c, ch.endsIn_protect hl c, ?_⟩
      unsigned := fun hl => ?_
      remembered := fun hl => ?_
      unremembered := fun hl => ?_
      ends := ch.ends_advance c reply }
  · rw [hicv, if_pos hl]
  · rw [hicv, hl, if_neg Bool.false_ne_true]
  · rw [hlast, if_pos hl]
  · rw [hlast, hl, if_neg Bool.false_ne_true]

open Dialogue in
theorem exists_exchanged (hf : ch.Fits) (hle : c.payload.length ≤ ch.maxData) :
    ∃ (w : Command) (bytes covered : List UInt8)
      (outcome : Reply → Except Error Response × Channel),
      (wrap ch c).1 = .ok w ∧ w.toBytes = .ok bytes ∧ Channel.Covered c covered ∧
      transmit ch c = send bytes (fun reply => done (outcome reply)) ∧
      ∀ reply, Exchanged ch covered w reply (outcome reply).1 (outcome reply).2 := by
  obtain ⟨bytes, hbytes⟩ := hf.exists_toBytes hle
  refine ⟨ch.protect c, bytes, Channel.remembered c, (ch.advance c).receive, ?_, hbytes, ?_, ?_,
    exchanged_receive ch c⟩
  · rw [wrap_eq hf, Channel.wrap_of_le hle]
  · apply Channel.covered_remembered
    rw [Channel.Fits] at hf
    omega
  · rw [transmit_eq hf, Channel.transmit_of_le hle hbytes]

open Dialogue in
/-- In every state that a new channel gets into, a command is either too long, and then nothing is
sent and nothing changes, or it is handed over once, as `wrap` gives it.  In the second case the
channel has moved on by that command, whatever the reply is.  The chain of responses moves with an
accepted response that had to carry a MAC, and to that MAC. -/
theorem transmit_exchanges {keys : SessionKeys} {options : Options} {level : SecurityLevel}
    {seed : Option Block} {max : Nat}
    (created : Channel.create keys options level seed max = .ok new) (reached : Reached new ch)
    (c : Command) :
    (ch.maxData < c.payload.length →
      transmit ch c = done (.error (.dataTooLong c.payload.length ch.maxData), ch)) ∧
    (c.payload.length ≤ ch.maxData →
      ∃ (w : Command) (bytes covered : List UInt8)
        (outcome : Reply → Except Error Response × Channel),
        (wrap ch c).1 = .ok w ∧ w.toBytes = .ok bytes ∧ Channel.Covered c covered ∧
        transmit ch c = send bytes (fun reply => done (outcome reply)) ∧
        ∀ reply, Exchanged ch covered w reply (outcome reply).1 (outcome reply).2 ∧
          ((outcome reply).2.responseIcv ≠ ch.responseIcv →
            ch.level.rMac = true ∧ ∃ r, (outcome reply).1 = .ok r) ∧
          ∀ r, (outcome reply).1 = .ok r →
            reply = .ok (r.payload ++
              (if ch.level.rMac then (outcome reply).2.responseIcv.toBytes else []) ++
              r.status.toBytes)) := by
  have hfresh := Channel.fits_of_create created
  have hf := (reached.continues hfresh).fits hfresh
  constructor
  · intro hlt
    rw [transmit_eq hf, Channel.transmit_of_lt hlt]
  · intro hle
    obtain ⟨w, bytes, covered, outcome, hwrap, hbytes, hcovered, hsend, hexchanged⟩ :=
      exists_exchanged hf hle
    refine ⟨w, bytes, covered, outcome, hwrap, hbytes, hcovered, hsend,
      fun reply => ⟨hexchanged reply, (hexchanged reply).ends.verified_of_ne, ?_⟩⟩
    · intro r hr
      have hends := (hexchanged reply).ends
      rw [hr] at hends
      exact hends.reply_eq

section Sample

open Channel (sample sampleSent sampleCommand sampleLong sampleKeys sampleLevel sampleSeed
  sampleMac sampleWrapped)

open Dialogue in
/-- A command whose answer is lost: the chain has moved to the MAC of the command.  A command that is
too long after it changes nothing. -/
theorem transmit_exchanges_sample :
    Channel.create sampleKeys .default sampleLevel (some sampleSeed) 255 = .ok sample ∧
    Reached sample sampleSent ∧
    transmit sampleSent sampleLong = done (.error (.dataTooLong 240 239), sampleSent) ∧
    ∃ (bytes covered : List UInt8) (outcome : Reply → Except Error Response × Channel),
      (sampleWrapped sampleMac).toBytes = .ok bytes ∧
      transmit sample sampleCommand = send bytes (fun reply => done (outcome reply)) ∧
      Exchanged sample covered (sampleWrapped sampleMac) (.error .timeout)
        (outcome (.error .timeout)).1 (outcome (.error .timeout)).2 ∧
      (outcome (.error .timeout)).2.icv = some sampleMac := by
  have hf : sample.Fits := Channel.fits_of_create Channel.create_sample
  have hle : sampleCommand.payload.length ≤ sample.maxData := by decide
  have hlength : sampleLong.payload.length = 240 := List.length_replicate
  have hlong : sampleSent.maxData < sampleLong.payload.length := by
    rw [hlength]
    decide
  obtain ⟨w, bytes, covered, outcome, hwrap, hbytes, -, hsend, hexchanged⟩ :=
    (transmit_exchanges Channel.create_sample .new sampleCommand).2 hle
  obtain rfl : w = sampleWrapped sampleMac := by
    rw [wrap_eq hf, Channel.wrap_sample] at hwrap
    exact (Except.ok.inj hwrap).symm
  have hlost := (hexchanged (.error .timeout)).1
  refine ⟨Channel.create_sample, reached_sampleSent, ?_, bytes, covered, outcome, hbytes, hsend,
    hlost, ?_⟩
  · rw [(transmit_exchanges Channel.create_sample reached_sampleSent sampleLong).1 hlong, hlength]
    rfl
  · obtain ⟨mac, ⟨body, hdata⟩, hicv⟩ := hlost.signed rfl
    have hsame : body ++ mac.toBytes = Channel.sampleBody ++ sampleMac.toBytes :=
      (Option.some.inj hdata).symm
    have hmac := (List.append_inj' hsame rfl).2
    rw [hicv, Block.toBytes_inj.mp hmac]

end Sample

end CardChannel.Stepwise
