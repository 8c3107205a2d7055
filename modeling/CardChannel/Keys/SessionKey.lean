import CardChannel.Cipher.Chaining
import CardChannel.Cipher.Padding
import CardChannel.Cipher.TripleDes

/-! Session keys and what is done with them.  A session key has two halves and serves as the triple
DES key whose third part repeats the first.  `mac` is the retail MAC: single DES chains the padded
data under the left half, and only the last block passes through all three steps. -/

namespace CardChannel

structure SessionKey where
  left : Block
  right : Block
deriving DecidableEq, Repr

namespace SessionKey

def toTriple (key : SessionKey) : TripleKey := ⟨key.left, key.right, key.left⟩

def ofOctets (a : Octets 16) : SessionKey :=
  let key := TripleKey.ofDouble a
  ⟨key.first, key.second⟩

/-- The key in twenty-four bytes. -/
def toBytes (key : SessionKey) : List UInt8 := key.toTriple.toBytes

/-- Nothing of a session key is shown. -/
def inspect (_ : SessionKey) : String := "SessionKey(..)"

def encrypt (key : SessionKey) (block : Block) : Block := key.toTriple.encrypt block

def decrypt (key : SessionKey) (block : Block) : Block := key.toTriple.decrypt block

def mac (key : SessionKey) (initial : Block) (data : List UInt8) : Block :=
  let blocks := Block.split (Padding.pad data)
  let chain := Chaining.mac (Des.encrypt key.left) initial blocks.dropLast
  key.encrypt (blocks.getLastD .zero ^^^ chain)

/-- Single DES under the left half, applied to a MAC before it starts the next one. -/
def encryptIcv (key : SessionKey) (icv : Block) : Block := Des.encrypt key.left icv

def encryptPadded (key : SessionKey) (data : List UInt8) : List UInt8 :=
  Block.join (Chaining.encrypt key.encrypt .zero (Block.split (Padding.pad data)))

def decryptPadded (key : SessionKey) (data : List UInt8) : Except Cipher.Fault (List UInt8) :=
  if data.length % 8 = 0 then
    Padding.unpad (Block.join (Chaining.decrypt key.decrypt .zero (Block.split data)))
  else .error .misaligned

/-- Each block on its own, without padding. -/
def encryptBlocks (key : SessionKey) (data : List UInt8) : Except Cipher.Fault (List UInt8) :=
  if data.length % 8 = 0 then .ok (Block.join ((Block.split data).map key.encrypt))
  else .error .misaligned

end SessionKey

end CardChannel
