import CardChannel.Cipher.Des
import CardChannel.Cipher.Fault

/-! Triple DES with three keys: encrypt under the first, decrypt under the second, encrypt under
the third.  A key of sixteen bytes stands for the one of twenty-four that repeats its first
eight. -/

namespace CardChannel

structure TripleKey where
  first : Block
  second : Block
  third : Block
deriving DecidableEq, Repr

namespace TripleKey

def encrypt (key : TripleKey) (block : Block) : Block :=
  Des.encrypt key.third (Des.decrypt key.second (Des.encrypt key.first block))

def decrypt (key : TripleKey) (block : Block) : Block :=
  Des.decrypt key.first (Des.encrypt key.second (Des.decrypt key.third block))

def toBytes (key : TripleKey) : List UInt8 := Block.join [key.first, key.second, key.third]

def ofOctets (a : Octets 24) : TripleKey :=
  ⟨.ofOctets (a.slice 0 8 (by decide)), .ofOctets (a.slice 8 8 (by decide)),
    .ofOctets (a.slice 16 8 (by decide))⟩

/-- The key whose third part repeats the first. -/
def ofDouble (a : Octets 16) : TripleKey :=
  let first := .ofOctets (a.slice 0 8 (by decide))
  ⟨first, .ofOctets (a.slice 8 8 (by decide)), first⟩

/-- A key in twenty-four bytes. -/
def ofTripleLength (bytes : List UInt8) : Except Cipher.Fault TripleKey :=
  match Octets.ofBytes? 24 bytes with
  | some octets => .ok (ofOctets octets)
  | none => .error .keyLength

/-- A base key as it is stored, in sixteen or twenty-four bytes. -/
def ofBytes (bytes : List UInt8) : Except Cipher.Fault TripleKey :=
  match Octets.ofBytes? 16 bytes, Octets.ofBytes? 24 bytes with
  | some octets, _ => .ok (ofDouble octets)
  | none, some octets => .ok (ofOctets octets)
  | none, none => .error .staticKeyLength

/-- The first three bytes of the encrypted zero block, which tell keys apart without revealing
them. -/
def checkValue (key : TripleKey) : List UInt8 := (key.encrypt .zero).toBytes.take 3

end TripleKey

end CardChannel
