import CardChannel.SecurityLevel
import CardChannel.Block
import CardChannel.Apdu.Command
import CardChannel.Apdu.Response

/-! EXTERNAL AUTHENTICATE, the command that ends the handshake.  The host sends its cryptogram and
the security level that it wants; the card answers with a status alone. -/

namespace CardChannel.ExternalAuthenticate

def command (level : SecurityLevel) (hostCryptogram : Block) : Command :=
  ⟨0x80, 0x82, level.bits, 0x00, some hostCryptogram.toBytes, none⟩

def checkResponse (response : Response) : Except Error Unit :=
  if response.status = .success then .ok ()
  else if response.status = .hostCryptogramFailed then .error .hostCryptogramRejected
  else .error (.cardStatus "EXTERNAL AUTHENTICATE" response.status)

def checkBytes (bytes : List UInt8) : Except Error Unit :=
  match Response.ofBytes bytes with
  | .error cause => .error (.apdu (.response cause))
  | .ok response => checkResponse response

end CardChannel.ExternalAuthenticate
