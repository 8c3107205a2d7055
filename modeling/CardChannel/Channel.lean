import CardChannel.Config
import CardChannel.SecurityLevel
import CardChannel.Dialogue
import CardChannel.Apdu.Command
import CardChannel.Apdu.Response

/-! Secure messaging.  A channel wraps each command, by a MAC and by encryption as its level asks,
and unwraps each response.  MACs are chained: the one over a command starts from the one before it,
and so for responses, whose MAC also covers the last command.  `wrap` and `unwrap` give the channel
for the next exchange beside their result. -/

namespace CardChannel

structure Channel where
  keys : SessionKeys
  options : Options
  level : SecurityLevel
  /-- The longest payload that still fits a command once it is wrapped. -/
  maxData : Nat
  /-- The MAC of the last command, none before the first. -/
  icv : Option Block
  /-- The MAC of the last response. -/
  responseIcv : Block
  /-- The last command, as the MAC of its response covers it. -/
  lastCommand : Option (List UInt8)
deriving DecidableEq, Repr

namespace Channel

def macLength : Nat := 8

/-- The room left for data in commands of at most `max` bytes, once MAC and padding have theirs. -/
def dataRoom (level : SecurityLevel) (max : Nat) : Except Error Nat :=
  if maxShortData < max then
    .error (.invalidConfig "max APDU data length exceeds a short APDU")
  else if level.cMac = false then .ok max
  else if max < macLength then .error (.invalidConfig "max APDU data length cannot hold a C-MAC")
  else if level.cDecryption = false then .ok (max - macLength)
  else if max - macLength < 8 then
    .error (.invalidConfig "max APDU data length cannot hold encryption padding")
  else .ok (max - macLength - 8)

/-- A channel whose MAC chains both start from `icv`, or afresh without one. -/
def create (keys : SessionKeys) (options : Options) (level : SecurityLevel) (icv : Option Block)
    (max : Nat) : Except Error Channel := do
  level.validate
  let room ← dataRoom level max
  return ⟨keys, options, level, room, icv, icv.getD .zero, none⟩

/-- The bit of the class byte that marks a secured command. -/
def markSecure (cla : UInt8) : UInt8 := cla ||| 0x04

/-- The class byte without the bits that name the logical channel or mark a secured command. -/
def plainClass (cla : UInt8) : UInt8 := cla &&& 0xF8

/-- A command as the MAC of its response covers it. -/
def remembered (c : Command) : List UInt8 :=
  { c with cla := plainClass c.cla }.header ++
    if c.payload.isEmpty then [] else UInt8.ofNat c.payload.length :: c.payload

/-- A command as its own MAC covers it: with the class and the length that it has on the wire, or
before they are changed. -/
def macInput (options : Options) (c : Command) : List UInt8 :=
  if options.macOnUnmodified then c.header ++ UInt8.ofNat c.payload.length :: c.payload
  else { c with cla := markSecure c.cla }.header ++
    UInt8.ofNat (c.payload.length + macLength) :: c.payload

/-- What the MAC of the next command starts from. -/
def nextInitial (ch : Channel) : Block :=
  match ch.icv with
  | none => .zero
  | some icv => if ch.options.icvEncryption then ch.keys.mac.encryptIcv icv else icv

def commandMac (ch : Channel) (c : Command) : Block :=
  ch.keys.mac.mac ch.nextInitial (macInput ch.options c)

/-- The payload as it travels. -/
def protectPayload (ch : Channel) (payload : List UInt8) : List UInt8 :=
  if ch.level.cDecryption ∧ payload ≠ [] then ch.keys.enc.encryptPadded payload else payload

def remember (ch : Channel) (c : Command) : Channel :=
  if ch.level.rMac then { ch with lastCommand := some (remembered c) } else ch

def wrap (ch : Channel) (c : Command) : Except Error Command × Channel :=
  if ch.maxData < c.payload.length then
    (.error (.dataTooLong c.payload.length ch.maxData), ch)
  else if ch.level.cMac then
    let mac := ch.commandMac c
    let data := ch.protectPayload c.payload ++ mac.toBytes
    (.ok { c with cla := markSecure c.cla, data := some data },
      { ch.remember c with icv := some mac })
  else (.ok c, ch.remember c)

def responseTooShort : Error := .protocol "response too short to carry an R-MAC"

def noCommand : Error := .protocol "no command to match the response against"

def invalidResponseMac : Error := .authenticationFailed "invalid R-MAC"

/-- What the MAC of a response covers: the command that it answers, and its data and status.  The
length of the data counts modulo 256. -/
def responseMacInput (last data : List UInt8) (status : StatusWord) : List UInt8 :=
  last ++ UInt8.ofNat data.length :: data ++ status.toBytes

def responseMac (ch : Channel) (last data : List UInt8) (status : StatusWord) : Block :=
  ch.keys.rMac.mac ch.responseIcv (responseMacInput last data status)

def unwrap (ch : Channel) (r : Response) : Except Error Response × Channel :=
  if ch.level.rMac then
    if r.payload.length < macLength then (.error responseTooShort, ch)
    else match ch.lastCommand with
      | none => (.error noCommand, ch)
      | some last =>
        let data := r.payload.take (r.payload.length - macLength)
        let mac := ch.responseMac last data r.status
        if r.payload.drop (r.payload.length - macLength) = mac.toBytes then
          (.ok ⟨data, r.status⟩, { ch with responseIcv := mac })
        else (.error invalidResponseMac, ch)
  else (.ok r, ch)

open Dialogue in
/-- Send a command through the channel and check the answer. -/
def transmit (ch : Channel) (c : Command) : Dialogue (Except Error Response × Channel) :=
  match ch.wrap c with
  | (.error error, ch) => done (.error error, ch)
  | (.ok wrapped, ch) =>
    match wrapped.toBytes with
    | .error error => done (.error (.apdu error), ch)
    | .ok bytes =>
      send bytes fun
        | .error cause => done (.error (.transport cause), ch)
        | .ok raw =>
          match Response.ofBytes raw with
          | .error cause => done (.error (.response cause), ch)
          | .ok response => done (ch.unwrap response)

end Channel

end CardChannel
