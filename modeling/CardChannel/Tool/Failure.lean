import CardChannel.Error

/-! How the tool reports a failure: the error with its parts, as for inspection. -/

namespace CardChannel

def TransportError.inspect : TransportError → String
  | other text => Inspect.tuple "Other" [Inspect.text text]
  | error => error.name

def ApduError.inspect : ApduError → String
  | transport cause => Inspect.tuple "Transport" [cause.inspect]
  | response cause => Inspect.tuple "Response" [cause.name]
  | invalidCommandLength length => Inspect.tuple "InvalidCommandLength" [toString length]
  | dataTooLong length => Inspect.tuple "DataTooLong" [toString length]

def Error.inspect (error : Error) : String :=
  let decimal (byte : UInt8) : String := toString byte.toNat
  match error with
  | .transport cause => Inspect.tuple "Transport" [cause.inspect]
  | .apdu cause => Inspect.tuple "Apdu" [cause.inspect]
  | .response cause => Inspect.tuple "Response" [cause.name]
  | .invalidLength expected actual =>
    Inspect.record error.name [("expected", toString expected), ("actual", toString actual)]
  | .protocol detail | .authenticationFailed detail | .invalidSecurityLevel detail
  | .invalidConfig detail | .crypto detail => Inspect.tuple error.name [Inspect.text detail]
  | .unsupportedVersion version => Inspect.tuple error.name [decimal version]
  | .keyVersionMismatch requested reported =>
    Inspect.record error.name [("requested", decimal requested), ("reported", decimal reported)]
  | .cardLocked status => Inspect.tuple error.name [status.inspect]
  | .cardStatus command status =>
    Inspect.record error.name [("command", Inspect.text command), ("status", status.inspect)]
  | .dataTooLong length max =>
    Inspect.record error.name [("length", toString length), ("max", toString max)]
  | .keyNotFound keyId keyVersion =>
    Inspect.record error.name [("key_id", decimal keyId), ("key_version", decimal keyVersion)]
  | .hostCryptogramRejected | .referencedDataNotFound | .noSecureChannel => error.name

/-- A byte that is no digit is shown as the character with that code. -/
def Hex.Fault.inspect : Hex.Fault → String
  | oddLength => "OddLength"
  | invalidCharacter byte index =>
    Inspect.record "InvalidHexCharacter"
      [("c", Inspect.character (Char.ofNat byte.toNat)), ("index", toString index)]

namespace Tool

inductive Failure where
  | hex (fault : Hex.Fault)
  | apdu (error : ApduError)
  | response (error : ResponseError)
  | channel (error : Error)
deriving DecidableEq

def Failure.inspect : Failure → String
  | hex fault => fault.inspect
  | apdu error => error.inspect
  | response error => error.name
  | channel error => error.inspect

end Tool

end CardChannel
