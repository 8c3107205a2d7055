import CardChannel.Error
import CardChannel.Apdu.Command
import CardChannel.Apdu.Response
import CardChannel.Handshake.Cryptogram

/-! INITIALIZE UPDATE, the command that opens the handshake.  The host sends a challenge and the
key version that it wants; the card answers with twenty-eight bytes of fixed layout. -/

namespace CardChannel.InitializeUpdate

def command (keyVersion : UInt8) (hostChallenge : Block) : Command :=
  ⟨0x80, 0x50, keyVersion, 0x00, some hostChallenge.toBytes, some 0x00⟩

structure Reply where
  diversificationData : Octets 10
  keyVersion : UInt8
  version : UInt8
  sequenceCounter : SequenceCounter
  cardChallenge : CardChallenge
  cardCryptogram : Block
deriving DecidableEq

def Reply.ofPayload (payload : List UInt8) : Except Error Reply := do
  let payload ← Octets.expect 28 payload
  return {
    diversificationData := payload.slice 0 10 (by decide)
    keyVersion := payload.get 10 (by decide)
    version := payload.get 11 (by decide)
    sequenceCounter := payload.slice 12 2 (by decide)
    cardChallenge := payload.slice 14 6 (by decide)
    cardCryptogram := .ofOctets (payload.slice 20 8 (by decide)) }

def Reply.ofResponse (response : Response) : Except Error Reply :=
  if response.status = .success then Reply.ofPayload response.payload
  else if response.status = .securityNotSatisfied ∨ response.status = .authenticationBlocked then
    .error (.cardLocked response.status)
  else if response.status = .referencedDataNotFound then .error .referencedDataNotFound
  else .error (.cardStatus "INITIALIZE UPDATE" response.status)

def Reply.ofBytes (bytes : List UInt8) : Except Error Reply :=
  match Response.ofBytes bytes with
  | .error cause => .error (.apdu (.response cause))
  | .ok response => Reply.ofResponse response

end CardChannel.InitializeUpdate
