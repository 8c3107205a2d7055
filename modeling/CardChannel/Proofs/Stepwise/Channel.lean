import CardChannel.Proofs.Stepwise.Cipher
import CardChannel.Proofs.Wrapping

/-! A channel that is written to as it goes.  `wrap` remembers the command and moves the chain on
before it is known that the rest succeeds, so a failure after that would leave the channel halfway.
On a channel that `Fits` short commands there is no such failure, and the result is that of the
operation without the checks: `wrap_eq`, `unwrap_eq` and `transmit_eq`. -/

namespace CardChannel.Stepwise

open Channel (markSecure macLength macInput responseMacInput)

/-- What the MAC of the next command starts from. -/
def nextInitial (ch : Channel) : Except Cipher.Fault Block :=
  match ch.icv with
  | none => .ok .zero
  | some icv => if ch.options.icvEncryption then encryptIcv ch.keys.mac icv else .ok icv

/-- The payload as it travels. -/
def protectPayload (ch : Channel) (payload : List UInt8) : Except Cipher.Fault (List UInt8) :=
  if ch.level.cDecryption ∧ payload ≠ [] then encryptPadded ch.keys.enc payload else .ok payload

/-- The end of `wrap`: from the MAC on, the chain has moved. -/
def sealWith (ch : Channel) (c : Command) (mac : Block) : Except Error Command × Channel :=
  let ch := { ch with icv := some mac }
  match protectPayload ch c.payload with
  | .error fault => (.error (.ofFault fault), ch)
  | .ok body =>
    let wrapped := { c with cla := markSecure c.cla, data := some (body ++ mac.toBytes) }
    -- The command is written once here, for the log.
    match wrapped.toBytes with
    | .error error => (.error (.apdu error), ch)
    | .ok _ => (.ok wrapped, ch)

def wrap (ch : Channel) (c : Command) : Except Error Command × Channel :=
  if ch.maxData < c.payload.length then
    (.error (.dataTooLong c.payload.length ch.maxData), ch)
  else
    let ch := ch.remember c
    if ch.level.cMac = false then (.ok c, ch)
    else
      match nextInitial ch with
      | .error fault => (.error (.ofFault fault), ch)
      | .ok initial =>
        match mac ch.keys.mac initial (macInput ch.options c) with
        | .error fault => (.error (.ofFault fault), ch)
        | .ok mac => sealWith ch c mac

def unwrap (ch : Channel) (r : Response) : Except Error Response × Channel :=
  if ch.level.rMac = false then (.ok r, ch)
  else if r.payload.length < macLength then (.error Channel.responseTooShort, ch)
  else
    match ch.lastCommand with
    | none => (.error Channel.noCommand, ch)
    | some last =>
      let data := r.payload.take (r.payload.length - macLength)
      match mac ch.keys.rMac ch.responseIcv (responseMacInput last data r.status) with
      | .error fault => (.error (.ofFault fault), ch)
      | .ok mac =>
        if r.payload.drop (r.payload.length - macLength) = mac.toBytes then
          (.ok ⟨data, r.status⟩, { ch with responseIcv := mac })
        else (.error Channel.invalidResponseMac, ch)

open Dialogue in
def transmit (ch : Channel) (c : Command) : Dialogue (Except Error Response × Channel) :=
  match wrap ch c with
  | (.error error, ch) => done (.error error, ch)
  | (.ok wrapped, ch) =>
    match wrapped.toBytes with
    | .error error => done (.error (.apdu error), ch)
    | .ok bytes =>
      send bytes fun
        | .error cause => done (.error (.transport cause), ch)
        | .ok raw =>
          match Response.ofBytes raw with
          | .error cause => done (.error (.response cause), ch)
          | .ok response => done (unwrap ch response)

variable {ch : Channel} {c : Command}

theorem nextInitial_eq (ch : Channel) : nextInitial ch = .ok ch.nextInitial := by
  rw [nextInitial, Channel.nextInitial]
  cases ch.icv with
  | none => rfl
  | some icv =>
    simp only [encryptIcv_eq]
    split <;> rfl

theorem protectPayload_eq (ch : Channel) (payload : List UInt8) :
    protectPayload ch payload = .ok (ch.protectPayload payload) := by
  rw [protectPayload, Channel.protectPayload, encryptPadded_eq]
  split <;> rfl

theorem sealWith_eq {mac : Block} {bytes : List UInt8}
    (h : ({ c with
        cla := markSecure c.cla
        data := some (ch.protectPayload c.payload ++ mac.toBytes) } : Command).toBytes =
      .ok bytes) :
    sealWith ch c mac =
      (.ok { c with
        cla := markSecure c.cla
        data := some (ch.protectPayload c.payload ++ mac.toBytes) },
        { ch with icv := some mac }) := by
  simp only [sealWith, protectPayload_eq]
  -- The encryption does not look at the chain.
  have hsame : ({ ch with icv := some mac } : Channel).protectPayload c.payload =
    ch.protectPayload c.payload := rfl
  simp only [hsame, h]

theorem nextInitial_remember : (ch.remember c).nextInitial = ch.nextInitial := by
  rw [Channel.remember]
  split <;> rfl

theorem protectPayload_remember (payload : List UInt8) :
    (ch.remember c).protectPayload payload = ch.protectPayload payload := by
  rw [Channel.remember]
  split <;> rfl

theorem continues_remember (ch : Channel) (c : Command) : Channel.Continues ch (ch.remember c) := by
  rw [Channel.remember]
  split <;> exact ⟨rfl, rfl, rfl, rfl⟩

theorem wrap_eq (hf : ch.Fits) (c : Command) : wrap ch c = ch.wrap c := by
  by_cases hlt : ch.maxData < c.payload.length
  · rw [wrap, if_pos hlt, Channel.wrap_of_lt hlt]
  have hle := Nat.le_of_not_lt hlt
  obtain ⟨bytes, hbytes⟩ := hf.exists_toBytes hle
  have hsame := continues_remember ch c
  rw [wrap, if_neg hlt, Channel.wrap_of_le hle, Channel.advance]
  cases hc : ch.level.cMac with
  | false => simp [hsame.level, hc, Channel.protect_of_false hc]
  | true =>
    have hlevel : (ch.remember c).level.cMac = true := by rw [hsame.level, hc]
    have hmac : mac (ch.remember c).keys.mac (ch.remember c).nextInitial
        (macInput (ch.remember c).options c) = .ok (ch.commandMac c) := by
      rw [mac_eq, hsame.keys, hsame.options, nextInitial_remember]
      rfl
    rw [Channel.protect_of_true hc, ← protectPayload_remember] at hbytes ⊢
    simp only [hlevel, nextInitial_eq, hmac, Bool.true_eq_false, if_false, if_true]
    exact sealWith_eq hbytes

theorem unwrap_eq (ch : Channel) (r : Response) : unwrap ch r = ch.unwrap r := by
  rw [unwrap, Channel.unwrap]
  cases ch.level.rMac with
  | false => rfl
  | true =>
    simp only [mac_eq, Bool.true_eq_false, if_false, if_true]
    rfl

theorem transmit_eq (hf : ch.Fits) (c : Command) : transmit ch c = ch.transmit c := by
  rw [transmit, wrap_eq hf]
  simp only [unwrap_eq]
  rfl

end CardChannel.Stepwise
