import CardChannel.Error
import CardChannel.Cipher.TripleDes

/-! The base keys that host and card share.  A set holds three keys under the identifiers one, two
and three, and answers for one key version, or for every version when its own is zero. -/

namespace CardChannel

namespace KeyId

def enc : UInt8 := 1

def mac : UInt8 := 2

def dek : UInt8 := 3

end KeyId

/-- The key version that stands for any. -/
def anyKeyVersion : UInt8 := 0

structure KeySet where
  version : UInt8
  enc : TripleKey
  mac : TripleKey
  dek : TripleKey
deriving DecidableEq, Repr

namespace KeySet

def uniform (version : UInt8) (key : TripleKey) : KeySet := ⟨version, key, key, key⟩

/-- The test key of cards that have not been personalised, the bytes 40 to 4F. -/
def defaultKey : TripleKey := ⟨⟨0x4041424344454647⟩, ⟨0x48494A4B4C4D4E4F⟩, ⟨0x4041424344454647⟩⟩

def default : KeySet := uniform anyKeyVersion defaultKey

def answersFor (set : KeySet) (version : UInt8) : Bool :=
  set.version == anyKeyVersion || version == set.version

def key? (set : KeySet) (id : UInt8) : Option TripleKey :=
  if id = KeyId.enc then some set.enc
  else if id = KeyId.mac then some set.mac
  else if id = KeyId.dek then some set.dek
  else none

def lookup (set : KeySet) (id version : UInt8) : Except Error TripleKey :=
  match set.answersFor version, set.key? id with
  | true, some key => .ok key
  | _, _ => .error (.keyNotFound id version)

end KeySet

/-- A key is shown by its check value only. -/
def TripleKey.inspect (key : TripleKey) : String :=
  Inspect.record "StaticKey" [("kcv", Inspect.text (Hex.encode key.checkValue))]

end CardChannel
