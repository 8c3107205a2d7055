import CardChannel.Hex
import CardChannel.Inspect

/-! The implementation options of a card, one byte known as "i".  Each bit that is used decides one
facet of the protocol independently of the others. -/

namespace CardChannel

inductive InitiationMode where
  /-- The host opens the channel with INITIALIZE UPDATE and EXTERNAL AUTHENTICATE. -/
  | explicit
  /-- The first secured command opens the channel. -/
  | implicit
deriving DecidableEq, Repr

def InitiationMode.text : InitiationMode → String
  | explicit => "Explicit"
  | implicit => "Implicit"

structure Options where
  value : UInt8
deriving DecidableEq, Repr

namespace Options

/-- The options assumed of a card that advertises none. -/
def default : Options := ⟨0x15⟩

def has (o : Options) (bit : UInt8) : Bool := o.value &&& bit != 0

def threeBaseKeys (o : Options) : Bool := o.has 0x01

/-- The MAC of a command is taken before its class and length are changed. -/
def macOnUnmodified (o : Options) : Bool := o.has 0x02

def initiationMode (o : Options) : InitiationMode := if o.has 0x04 then .explicit else .implicit

/-- The first chaining value is a MAC over the identifier of the selected application. -/
def icvMacOverAid (o : Options) : Bool := o.has 0x08

/-- A chaining value is encrypted before the next MAC starts from it. -/
def icvEncryption (o : Options) : Bool := o.has 0x10

def rMacSupported (o : Options) : Bool := o.has 0x20

/-- The pseudo-random card challenges follow a public algorithm. -/
def wellKnownChallenge (o : Options) : Bool := o.has 0x40

def inspect (o : Options) : String :=
  Inspect.record "ScpParameters"
    [("i", Hex.literal o.value),
      ("three_base_keys", Inspect.bool o.threeBaseKeys),
      ("cmac_on_unmodified_apdu", Inspect.bool o.macOnUnmodified),
      ("initiation_mode", o.initiationMode.text),
      ("icv_mac_over_aid", Inspect.bool o.icvMacOverAid),
      ("icv_encryption", Inspect.bool o.icvEncryption),
      ("rmac_supported", Inspect.bool o.rMacSupported),
      ("well_known_challenge", Inspect.bool o.wellKnownChallenge)]

end Options

/-- What a card says about its secure channel; both entries may be absent. -/
structure CardProfile where
  version : Option UInt8
  options : Option Options
deriving DecidableEq, Repr

namespace CardProfile

/-- The version of the secure channel protocol that this library speaks. -/
def supportedVersion : UInt8 := 0x02

def ofOptions (o : Options) : CardProfile := ⟨some supportedVersion, some o⟩

def effectiveOptions (card : CardProfile) : Options := card.options.getD .default

end CardProfile

end CardChannel
