/-! The ways in which an exchange with a card fails below the secure channel: the reader does not
carry the command, the answer has no status, or the command has no byte form. -/

namespace CardChannel

inductive TransportError where
  /-- No card is connected. -/
  | connection
  | transmission
  | timeout
  | other (text : String)
deriving DecidableEq, Repr

def TransportError.name : TransportError → String
  | connection => "Connection"
  | transmission => "Transmission"
  | timeout => "Timeout"
  | other _ => "Other"

def TransportError.message : TransportError → String
  | connection => "Not connected to a card"
  | transmission => "Failed to transmit data"
  | timeout => "Operation timed out"
  | other text => text

inductive ResponseError where
  /-- An answer of fewer than two bytes has no status word. -/
  | incomplete
deriving DecidableEq, Repr

def ResponseError.name : ResponseError → String
  | incomplete => "Incomplete"

def ResponseError.message : ResponseError → String
  | incomplete => "Incomplete response"

inductive ApduError where
  | transport (cause : TransportError)
  | response (cause : ResponseError)
  | invalidCommandLength (length : Nat)
  | dataTooLong (length : Nat)
deriving DecidableEq, Repr

namespace ApduError

/-- The name of the error, with that of its cause in parentheses. -/
def name : ApduError → String
  | transport cause => "Transport(" ++ cause.name ++ ")"
  | response cause => "Response(" ++ cause.name ++ ")"
  | invalidCommandLength _ => "InvalidCommandLength"
  | dataTooLong _ => "DataTooLong"

def message : ApduError → String
  | transport cause => cause.message
  | response cause => cause.message
  | invalidCommandLength length => "Malformed command APDU of " ++ toString length ++ " bytes"
  | dataTooLong length =>
    "Command data of " ++ toString length ++ " bytes exceeds the 255-byte short APDU limit"

def isTransport : ApduError → Bool
  | transport _ => true
  | _ => false

end ApduError

end CardChannel
