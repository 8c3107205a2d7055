import CardChannel.Octets

/-! Blocks of eight bytes, the unit of the block cipher.  A block is one 64-bit word, first byte
most significant.  `toBytes` and `ofList` convert between a block and its eight bytes; `split` and
`join` do so for a sequence of blocks.  Chaining values, MACs, cryptograms and host challenges are
blocks. -/

namespace CardChannel

structure Block where
  word : UInt64
deriving DecidableEq, Repr, Inhabited

namespace Block

def zero : Block := ⟨0⟩

instance : XorOp Block := ⟨fun a b => ⟨a.word ^^^ b.word⟩⟩

/-- The last eight bytes of `bytes` as a block; a shorter string counts as led by zeros. -/
def ofList (bytes : List UInt8) : Block :=
  ⟨bytes.foldl (fun word byte => word * 256 + byte.toUInt64) 0⟩

def toBytes (b : Block) : List UInt8 :=
  [(b.word >>> 56).toUInt8, (b.word >>> 48).toUInt8, (b.word >>> 40).toUInt8,
    (b.word >>> 32).toUInt8, (b.word >>> 24).toUInt8, (b.word >>> 16).toUInt8,
    (b.word >>> 8).toUInt8, b.word.toUInt8]

@[simp] theorem length_toBytes (b : Block) : b.toBytes.length = 8 := rfl

def ofOctets (a : Octets 8) : Block := ofList a.toList

/-- The whole blocks of a byte string; bytes past the last of them are dropped. -/
def split : List UInt8 → List Block
  | b₀ :: b₁ :: b₂ :: b₃ :: b₄ :: b₅ :: b₆ :: b₇ :: rest =>
    ofList [b₀, b₁, b₂, b₃, b₄, b₅, b₆, b₇] :: split rest
  | _ => []

def join (blocks : List Block) : List UInt8 := blocks.flatMap toBytes

end Block

end CardChannel
