import CardChannel.Octets
import CardChannel.Apdu.StatusWord
import CardChannel.Apdu.Error
import CardChannel.Cipher.Fault

/-! Why an operation of the secure channel fails.  Every error has a `message`, belongs to one
`ErrorKind`, and names the status word of the card where a status word was the cause.  The causes
that carry a text are built by the modules that detect them, which name the texts. -/

namespace CardChannel

inductive ErrorKind where
  | transport
  | protocol
  | authentication
  | configuration
  | cryptoEngine
  | cardStatus
deriving DecidableEq, Repr

def ErrorKind.name : ErrorKind → String
  | transport => "Transport"
  | protocol => "Protocol"
  | authentication => "Authentication"
  | configuration => "Configuration"
  | cryptoEngine => "CryptoEngine"
  | cardStatus => "CardStatus"

inductive Error where
  | transport (cause : TransportError)
  | apdu (cause : ApduError)
  | response (cause : ResponseError)
  | invalidLength (expected actual : Nat)
  | protocol (detail : String)
  | unsupportedVersion (version : UInt8)
  | keyVersionMismatch (requested reported : UInt8)
  | authenticationFailed (detail : String)
  | hostCryptogramRejected
  | cardLocked (status : StatusWord)
  | referencedDataNotFound
  | cardStatus (command : String) (status : StatusWord)
  | invalidSecurityLevel (detail : String)
  | dataTooLong (length max : Nat)
  | invalidConfig (detail : String)
  | keyNotFound (keyId keyVersion : UInt8)
  | crypto (detail : String)
  | noSecureChannel
deriving DecidableEq, Repr

namespace Error

def ofFault (fault : Cipher.Fault) : Error := .crypto fault.text

/-- The name of the error, with that of its cause in parentheses. -/
def name : Error → String
  | transport cause => "Transport(" ++ cause.name ++ ")"
  | apdu cause => "Apdu(" ++ cause.name ++ ")"
  | response cause => "Response(" ++ cause.name ++ ")"
  | invalidLength .. => "InvalidLength"
  | protocol _ => "Protocol"
  | unsupportedVersion _ => "UnsupportedScpVersion"
  | keyVersionMismatch .. => "KeyVersionMismatch"
  | authenticationFailed _ => "AuthenticationFailed"
  | hostCryptogramRejected => "HostCryptogramRejected"
  | cardLocked _ => "CardLocked"
  | referencedDataNotFound => "ReferencedDataNotFound"
  | cardStatus .. => "CardStatus"
  | invalidSecurityLevel _ => "InvalidSecurityLevel"
  | dataTooLong .. => "DataTooLong"
  | invalidConfig _ => "InvalidConfig"
  | keyNotFound .. => "KeyNotFound"
  | crypto _ => "Crypto"
  | noSecureChannel => "NoSecureChannel"

def message : Error → String
  | transport cause => cause.message
  | apdu cause => cause.message
  | response cause => cause.message
  | invalidLength expected actual =>
    "Invalid length: expected " ++ toString expected ++ ", got " ++ toString actual
  | protocol detail => "Protocol violation: " ++ detail
  | unsupportedVersion version => "Unsupported SCP version: " ++ Hex.literal version
  | keyVersionMismatch requested reported =>
    "Key version mismatch: requested " ++ Hex.literal requested ++ ", card reported " ++
      Hex.literal reported
  | authenticationFailed detail => "Authentication failed: " ++ detail
  | hostCryptogramRejected => "Card rejected the host cryptogram"
  | cardLocked status => "Card is locked: " ++ status.text
  | referencedDataNotFound => "Referenced data not found"
  | cardStatus command status =>
    command ++ " failed with status " ++ status.text ++ " (" ++ status.description ++ ")"
  | invalidSecurityLevel detail => "Invalid security level: " ++ detail
  | dataTooLong length max =>
    "Command data too long: " ++ toString length ++ " bytes, at most " ++ toString max ++ " allowed"
  | invalidConfig detail => "Invalid configuration: " ++ detail
  | keyNotFound keyId keyVersion =>
    "No key " ++ Hex.literal keyId ++ " for key version " ++ Hex.literal keyVersion
  | crypto detail => "Cryptographic error: " ++ detail
  | noSecureChannel => "Secure channel not established"

def kind : Error → ErrorKind
  | transport _ | apdu (.transport _) => .transport
  | apdu _ | response _ | invalidLength .. | protocol _ | unsupportedVersion _
  | keyVersionMismatch .. | noSecureChannel => .protocol
  | authenticationFailed _ | hostCryptogramRejected => .authentication
  | cardLocked _ | referencedDataNotFound | cardStatus .. => .cardStatus
  | invalidSecurityLevel _ | dataTooLong .. | invalidConfig _ | keyNotFound .. => .configuration
  | crypto _ => .cryptoEngine

/-- The status word that the card answered with, where the error stands for one. -/
def statusWord? : Error → Option StatusWord
  | cardLocked status | cardStatus _ status => some status
  | referencedDataNotFound => some .referencedDataNotFound
  | hostCryptogramRejected => some .hostCryptogramFailed
  | _ => none

end Error

/-- A byte string that has to have `n` bytes. -/
def Octets.expect (n : Nat) (bytes : List UInt8) : Except Error (Octets n) :=
  match Octets.ofBytes? n bytes with
  | some octets => .ok octets
  | none => .error (.invalidLength n bytes.length)

/-- Two steps in a row succeed if each of them does. -/
theorem bind_eq_ok_iff {ε α β : Type} {first : Except ε α} {second : α → Except ε β} {value : β} :
    first >>= second = .ok value ↔ ∃ a, first = .ok a ∧ second a = .ok value := by
  cases first <;> simp [bind, Except.bind]

/-- Of a check only its success counts. -/
theorem check_bind_eq_ok_iff {β : Type} {check : Except Error Unit} {second : Unit → Except Error β}
    {value : β} :
    check >>= second = .ok value ↔ check = .ok () ∧ second () = .ok value := by
  rw [bind_eq_ok_iff]
  exact ⟨fun ⟨_, h⟩ => h, fun h => ⟨_, h⟩⟩

theorem map_eq_ok_iff {ε α β : Type} {f : α → β} {result : Except ε α} {value : β} :
    result.map f = .ok value ↔ ∃ a, result = .ok a ∧ f a = value := by
  cases result <;> simp [Except.map]

section MapError

variable {ε ε' α : Type} {f : ε → ε'}

theorem mapError_ok (value : α) : (Except.ok value).mapError f = .ok value := rfl

theorem mapError_error (error : ε) :
    (Except.error error : Except ε α).mapError f = .error (f error) := rfl

theorem mapError_eq_ok_iff {result : Except ε α} {value : α} :
    result.mapError f = .ok value ↔ result = .ok value := by
  cases result with
  | ok a => rw [mapError_ok, Except.ok.injEq, Except.ok.injEq]
  | error error => rw [mapError_error]; exact ⟨nofun, nofun⟩

end MapError

end CardChannel
