import CardChannel.Tool.Failure
import CardChannel.Tool.Request

/-! A calculator for recorded exchanges with a card: session keys, the cryptograms of a handshake,
wrapped commands and checked responses.  `answer` gives what the tool prints for a list of
arguments and the code that it ends with. -/

namespace CardChannel.Tool

def decode (text : String) : Except Failure (List UInt8) := (Hex.decode text).mapError .hex

def baseKeySet : Option String → Except Failure KeySet
  | none => .ok .default
  | some text => do
    let key ← (TripleKey.ofBytes (← decode text)).mapError fun fault => .channel (.ofFault fault)
    return .uniform anyKeyVersion key

def sessionKeys (request : Request) : Except Failure SessionKeys := do
  let set ← baseKeySet request.key
  (SessionKeys.derive set (.single KeyId.enc) anyKeyVersion request.sequenceCounter).mapError
    .channel

def openChannel (request : Request) (channel : ChannelRequest) : Except Failure Channel := do
  let keys ← sessionKeys request
  let level ← (SecurityLevel.ofBits channel.level).mapError .channel
  (Channel.create keys channel.options level channel.icv maxShortData).mapError .channel

/-- A wrapped command and the channel after it. -/
def wrapCommand (channel : Channel) (apdu : String) : Except Failure (Command × Channel) := do
  let command ← (Command.ofBytes (← decode apdu)).mapError .apdu
  match channel.wrap command with
  | (.ok wrapped, channel) => return (wrapped, channel)
  | (.error error, _) => throw (.channel error)

def padRight (width : Nat) (text : String) : String :=
  text ++ String.ofList (List.replicate (width - text.length) ' ')

def keyLine (keys : SessionKeys) (usage : KeyUsage) : String :=
  let key := keys.get usage
  padRight 5 usage.name ++ " " ++ Hex.encodeUpper (key.toBytes.take 16) ++ "  KCV " ++
    Hex.encodeUpper key.toTriple.checkValue

def icvLine (label : String) (icv : Block) : String := label ++ ": " ++ Hex.encodeUpper icv.toBytes

def perform (request : Request) : Except Failure (List String) :=
  match request.job with
  | .deriveKeys => do
    let keys ← sessionKeys request
    return KeyUsage.all.map (keyLine keys)
  | .cryptogram cardChallenge hostChallenge => do
    let keys ← sessionKeys request
    let counter := request.sequenceCounter
    let card := Cryptogram.card keys.enc counter cardChallenge hostChallenge
    let host := Cryptogram.host keys.enc counter cardChallenge hostChallenge
    return ["Card cryptogram: " ++ Hex.encodeUpper card.toBytes,
      "Host cryptogram: " ++ Hex.encodeUpper host.toBytes]
  | .wrap channel apdu => do
    let (wrapped, channel) ← wrapCommand (← openChannel request channel) apdu
    let bytes ← wrapped.toBytes.mapError .apdu
    return Hex.encodeUpper bytes :: (channel.icv.map (icvLine "ICV")).toList
  | .unwrap channel apdu response => do
    let (_, channel) ← wrapCommand (← openChannel request channel) apdu
    let response ← (Response.ofBytes (← decode response)).mapError .response
    match channel.unwrap response with
    | (.ok plain, channel) =>
      return [Hex.encodeUpper plain.payload ++ " " ++ plain.status.text,
        icvLine "R-ICV" channel.responseIcv]
    | (.error error, _) => throw (.channel error)

/-- What the tool prints and the code that it ends with: zero for success, one for a failure and
two for arguments that ask for nothing. -/
structure Outcome where
  code : UInt8
  lines : List String
  complaint : Option String

def answer (args : List String) : Outcome :=
  match Request.read? args with
  | none => ⟨2, [], none⟩
  | some request =>
    match perform request with
    | .ok lines => ⟨0, lines, none⟩
    | .error failure => ⟨1, [], some ("Error: " ++ failure.inspect ++ "\n")⟩

end CardChannel.Tool
