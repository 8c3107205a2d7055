import CardChannel.Dialogue
import CardChannel.Apdu.Command
import CardChannel.Apdu.Response

/-! Commands sent in the clear. -/

namespace CardChannel.Command

open Dialogue in
def transmit (c : Command) : Dialogue (Except ApduError Response) :=
  match c.toBytes with
  | .error error => done (.error error)
  | .ok bytes =>
    send bytes fun
      | .error cause => done (.error (.transport cause))
      | .ok raw => done ((Response.ofBytes raw).mapError .response)

end CardChannel.Command
