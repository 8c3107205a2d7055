import CardChannel.Config
import CardChannel.Channel
import CardChannel.Handshake.InitializeUpdate
import CardChannel.Handshake.ExternalAuthenticate

/-! Mutual authentication.  `start` sends a challenge to the card and accepts the answer if its
cryptogram proves that the card holds the same keys; what was agreed on is a `Handshake`.
`finish` proves the same of the host.  Its command is sent through a channel that only adds a MAC,
and that MAC starts the chains of the channel to come. -/

namespace CardChannel

structure Handshake where
  hostChallenge : Block
  reply : InitializeUpdate.Reply
  keys : SessionKeys
deriving DecidableEq

namespace Handshake

def invalidCardCryptogram : Error := .authenticationFailed "invalid card cryptogram"

/-- Check an answer to INITIALIZE UPDATE and derive the session keys that it calls for. -/
def accept (provider : KeyProvider) (base : BaseKeys) (requested : UInt8) (hostChallenge : Block)
    (reply : InitializeUpdate.Reply) : Except Error Handshake :=
  if reply.version ≠ CardProfile.supportedVersion then
    .error (.unsupportedVersion reply.version)
  else if requested ≠ anyKeyVersion ∧ reply.keyVersion ≠ requested then
    .error (.keyVersionMismatch requested reply.keyVersion)
  else do
    let keys ← SessionKeys.derive provider base reply.keyVersion reply.sequenceCounter
    let expected :=
      Cryptogram.card keys.enc reply.sequenceCounter reply.cardChallenge hostChallenge
    if expected = reply.cardCryptogram then .ok ⟨hostChallenge, reply, keys⟩
    else .error invalidCardCryptogram

def acceptBytes (provider : KeyProvider) (base : BaseKeys) (requested : UInt8)
    (hostChallenge : Block) (raw : List UInt8) : Except Error Handshake := do
  accept provider base requested hostChallenge (← InitializeUpdate.Reply.ofBytes raw)

open Dialogue in
def start (provider : KeyProvider) (base : BaseKeys) (requested : UInt8) (hostChallenge : Block) :
    Dialogue (Except Error Handshake) :=
  match (InitializeUpdate.command requested hostChallenge).toBytes with
  | .error error => done (.error (.apdu error))
  | .ok bytes =>
    send bytes fun
      | .error cause => done (.error (.transport cause))
      | .ok raw => done (acceptBytes provider base requested hostChallenge raw)

def hostCryptogram (h : Handshake) : Block :=
  Cryptogram.host h.keys.enc h.reply.sequenceCounter h.reply.cardChallenge h.hostChallenge

def notSigned : Error := .protocol "EXTERNAL AUTHENTICATE was not MAC'd"

/-- EXTERNAL AUTHENTICATE with its MAC, and the MAC. -/
def finalCommand (h : Handshake) (options : Options) (level : SecurityLevel) (max : Nat) :
    Except Error (Command × Block) := do
  let channel ← Channel.create h.keys options .cMacOnly none max
  match channel.wrap (ExternalAuthenticate.command level h.hostCryptogram) with
  | (.error error, _) => .error error
  | (.ok wrapped, channel) =>
    match channel.icv with
    | some mac => .ok (wrapped, mac)
    | none => .error notSigned

open Dialogue in
/-- The MAC of EXTERNAL AUTHENTICATE, once the card has accepted it. -/
def finish (h : Handshake) (options : Options) (level : SecurityLevel) (max : Nat) :
    Dialogue (Except Error Block) :=
  match h.finalCommand options level max with
  | .error error => done (.error error)
  | .ok (wrapped, mac) =>
    match wrapped.toBytes with
    | .error error => done (.error (.apdu error))
    | .ok bytes =>
      send bytes fun
        | .error cause => done (.error (.transport cause))
        | .ok raw => done ((ExternalAuthenticate.checkBytes raw).map fun _ => mac)

end Handshake

end CardChannel
