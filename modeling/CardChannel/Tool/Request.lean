import CardChannel.Channel
import CardChannel.Handshake.Cryptogram
import CardChannel.Tool.Arguments

/-! What the command line asks for.  Values of a fixed width are read here, and a bad one makes the
request invalid; keys, commands and responses of any length are taken as they stand. -/

namespace CardChannel.Tool

structure ChannelRequest where
  level : UInt8
  options : Options
  icv : Option Block
deriving DecidableEq

inductive Job where
  | deriveKeys
  | cryptogram (cardChallenge : CardChallenge) (hostChallenge : Block)
  | wrap (channel : ChannelRequest) (apdu : String)
  | unwrap (channel : ChannelRequest) (apdu response : String)
deriving DecidableEq

structure Request where
  key : Option String
  sequenceCounter : SequenceCounter
  job : Job
deriving DecidableEq

def octets? (n : Nat) (text : String) : Option (Octets n) :=
  (Hex.decode text).toOption.bind (Octets.ofBytes? n)

def byte? (text : String) : Option UInt8 := (octets? 1 text).map fun a => a.get 0 (by decide)

def block? (text : String) : Option Block := (octets? 8 text).map .ofOctets

/-- The value of an option that may be absent. -/
def optional? {α : Type} (read : String → Option α) : Option String → Option (Option α)
  | none => some none
  | some text => (read text).map some

namespace Flag

def key : Flag := .ofName "key" (some 'k')

def sequenceCounter : Flag := .ofName "sequence-counter" (some 's')

def cardChallenge : Flag := .ofName "card-challenge" none

def hostChallenge : Flag := .ofName "host-challenge" none

def level : Flag := .ofName "level" (some 'l')

def parameter : Flag := .ofName "parameter" (some 'p')

def icv : Flag := .ofName "icv" none

end Flag

/-- The level is a MAC on commands and the options are the usual ones, unless given. -/
def ChannelRequest.ofArguments? (args : Arguments) : Option ChannelRequest := do
  let level ← optional? byte? (args.value? .level)
  let parameter ← optional? byte? (args.value? .parameter)
  let icv ← optional? block? (args.value? .icv)
  return ⟨level.getD 0x01, (parameter.map Options.mk).getD .default, icv⟩

def Job.read? (name : String) (args : List String) : Option Job :=
  match name with
  | "derive-keys" => do
    let given ← Arguments.read [] .any args
    if given.words = [] then some .deriveKeys else none
  | "cryptogram" => do
    let given ← Arguments.read [.cardChallenge, .hostChallenge] .any args
    let cardChallenge ← octets? 6 (← given.value? .cardChallenge)
    let hostChallenge ← block? (← given.value? .hostChallenge)
    if given.words = [] then some (.cryptogram cardChallenge hostChallenge) else none
  | "wrap" => do
    let given ← Arguments.read [.level, .parameter, .icv] .any args
    let channel ← ChannelRequest.ofArguments? given
    match given.words with
    | [apdu] => some (.wrap channel apdu)
    | _ => none
  | "unwrap" => do
    let given ← Arguments.read [.level, .parameter, .icv] .any args
    let channel ← ChannelRequest.ofArguments? given
    match given.words with
    | [apdu, response] => some (.unwrap channel apdu response)
    | _ => none
  | _ => none

def Request.read? (args : List String) : Option Request := do
  let given ← Arguments.read [.key, .sequenceCounter] .last args
  let sequenceCounter ← octets? 2 (← given.value? .sequenceCounter)
  match given.words with
  | name :: rest => return ⟨given.value? .key, sequenceCounter, ← Job.read? name rest⟩
  | [] => none

end CardChannel.Tool
