import CardChannel.Handshake

/-! Sessions with a card.  A session goes through the handshake to an open channel; any failure
after something was sent leaves it failed and without a channel, except that a command too long for
the channel is refused before it is sent and changes nothing.  A handshake can be started over from
every stage. -/

namespace CardChannel

inductive Stage where
  | new
  /-- The card has authenticated itself. -/
  | challenged
  /-- The host has authenticated itself as well. -/
  | authenticated
  | opened (channel : Channel)
  | failed
deriving DecidableEq

def Stage.channel? : Stage → Option Channel
  | .opened channel => some channel
  | _ => none

structure Session where
  keys : KeyProvider
  options : Options
  config : Config
  stage : Stage

namespace Session

/-- A card that does not name a version is taken to speak the supported one. -/
def checkVersion (card : CardProfile) : Except Error Unit :=
  match card.version with
  | none => .ok ()
  | some version =>
    if version = CardProfile.supportedVersion then .ok () else .error (.unsupportedVersion version)

def create (keys : KeyProvider) (card : CardProfile) (config : Config) : Except Error Session := do
  config.validate
  checkVersion card
  return ⟨keys, config.options.getD card.effectiveOptions, config, .new⟩

def channel? (s : Session) : Option Channel := s.stage.channel?

def isOpen (s : Session) : Bool := s.channel?.isSome

def level? (s : Session) : Option SecurityLevel := s.channel?.map Channel.level

def enter (s : Session) (stage : Stage) : Session := { s with stage }

/-- The outcome of a step, with the session in `stage` if it succeeded and failed if not. -/
def settle {α : Type} (s : Session) (stage : α → Stage) (result : Except Error α) :
    Except Error α × Session :=
  match result with
  | .ok value => (.ok value, s.enter (stage value))
  | .error error => (.error error, s.enter .failed)

/-- Start a handshake with a given host challenge. -/
def initializeUpdateWith (s : Session) (keyVersion : UInt8) (hostChallenge : Block) :
    Dialogue (Except Error Handshake × Session) := do
  let base := s.config.baseKeys s.options
  return s.settle (fun _ => .challenged) (← Handshake.start s.keys base keyVersion hostChallenge)

/-- Start a handshake with a random host challenge. -/
def initializeUpdate (s : Session) (keyVersion : UInt8) :
    Dialogue (Except Error Handshake × Session) := do
  s.initializeUpdateWith keyVersion (← Dialogue.drawChallenge)

def handshakeMissing : Error :=
  .protocol "EXTERNAL AUTHENTICATE requires a completed INITIALIZE UPDATE"

/-- Authenticate the host for a handshake; the result is the MAC that the chains start from. -/
def externalAuthenticate (s : Session) (h : Handshake) (level : SecurityLevel) :
    Dialogue (Except Error Block × Session) :=
  if s.stage = .challenged then
    match level.validate with
    | .error error => .done (.error error, s)
    | .ok () => do
      return s.settle (fun _ => .authenticated) (← h.finish s.options level s.config.maxData)
  else .done (.error handshakeMissing, s)

/-- Run the whole handshake and open the channel that it leads to. -/
def openChannel (s : Session) (level : SecurityLevel) :
    Dialogue (Except Error Unit × Session) :=
  match level.validate with
  | .error error => .done (.error error, s)
  | .ok () => do
    match ← s.initializeUpdate s.config.keyVersion with
    | (.error error, s) => return (.error error, s)
    | (.ok h, s) =>
      match ← s.externalAuthenticate h level with
      | (.error error, s) => return (.error error, s)
      | (.ok icv, s) =>
        let channel := Channel.create h.keys s.options level (some icv) s.config.maxData
        let (result, s) := s.settle .opened channel
        return (result.map fun _ => (), s)

/-- The session after its channel has transmitted a command. -/
def afterTransmit (s : Session) (channel : Channel) : Except Error Response → Session
  | .ok _ => s.enter (.opened channel)
  | .error (.dataTooLong ..) => s.enter (.opened channel)
  | .error _ => s.enter .failed

def transmit (s : Session) (c : Command) : Dialogue (Except Error Response × Session) :=
  match s.channel? with
  | none => .done (.error .noSecureChannel, s)
  | some channel => do
    let (result, channel) ← channel.transmit c
    return (result, s.afterTransmit channel result)

/-- Transmit a command given by its bytes; the result is the response as bytes. -/
def transmitRaw (s : Session) (bytes : List UInt8) :
    Dialogue (Except Error (List UInt8) × Session) :=
  match Command.ofBytes bytes with
  | .error error => .done (.error (.apdu error), s)
  | .ok c => do
    let (result, s) ← s.transmit c
    return (result.map Response.toBytes, s)

/-- Encrypt key material for the card; the length must be a multiple of eight. -/
def encryptSensitive (s : Session) (data : List UInt8) : Except Error (List UInt8) :=
  match s.channel? with
  | none => .error .noSecureChannel
  | some channel => (channel.keys.dek.encryptBlocks data).mapError .ofFault

def close (s : Session) : Session := s.enter .new

end Session

end CardChannel
