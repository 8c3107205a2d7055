import CardChannel.Block
import CardChannel.Cipher.Des.Tables
import CardChannel.Cipher.Feistel

/-! The Data Encryption Standard: sixteen Feistel rounds between two fixed permutations.
Decryption runs the same rounds with the round keys in reverse order.  The last bit of each key
byte is ignored, and no key is refused. -/

namespace CardChannel.Des

open Feistel

/-- The bits of the `width`-bit number `word` that `table` names, from left to right. -/
def select (width : Nat) (table : List Nat) (word : UInt64) : UInt64 :=
  table.foldl (fun bits i => bits <<< 1 ||| (word >>> (width - i).toUInt64 &&& 1)) 0

/-- The entry for six bits: the outer two choose the row, the inner four the column. -/
def SubstitutionBox.entry (box : SubstitutionBox) (bits : UInt64) : UInt64 :=
  let row :=
    if bits &&& 0x20 = 0 then
      if bits &&& 1 = 0 then box.row₀ else box.row₁
    else
      if bits &&& 1 = 0 then box.row₂ else box.row₃
  let column : UInt64 := bits >>> 1 &&& 0xF
  row >>> (60 - 4 * column) &&& 0xF

/-- Forty-eight bits replaced by thirty-two, six by four from the left, one box each. -/
def substitute (bits : UInt64) : UInt64 :=
  (substitutionBoxes.foldl
    (fun (out, rest) box => (out <<< 4 ||| box.entry (rest >>> 42 &&& 0x3F), rest <<< 6))
    (0, bits)).1

/-- The round function. -/
def mix (roundKey : UInt64) (half : UInt32) : UInt32 :=
  let bits := select 32 expansion half.toUInt64 ^^^ roundKey
  (select 32 roundPermutation (substitute bits)).toUInt32

/-- A rotation to the left of a 28-bit number. -/
def rotate (half amount : UInt64) : UInt64 :=
  (half <<< amount ||| half >>> (28 - amount)) &&& 0xFFFFFFF

/-- The round keys that the halves of a key give under the remaining rotations. -/
def roundKeys (left right : UInt64) : List UInt64 → List UInt64
  | [] => []
  | amount :: rest =>
    let left := rotate left amount
    let right := rotate right amount
    select 56 roundKeyChoice (left <<< 28 ||| right) :: roundKeys left right rest

def schedule (key : Block) : List UInt64 :=
  let chosen := select 64 keyChoice key.word
  roundKeys (chosen >>> 28) (chosen &&& 0xFFFFFFF) rotations

def halves (word : UInt64) : Halves := ⟨(word >>> 32).toUInt32, word.toUInt32⟩

def unhalve (h : Halves) : UInt64 := h.left.toUInt64 <<< 32 ||| h.right.toUInt64

def crypt (keys : List UInt64) (block : Block) : Block :=
  let final := run mix keys (halves (select 64 initialPermutation block.word))
  ⟨select 64 finalPermutation (unhalve final.swap)⟩

def encrypt (key block : Block) : Block := crypt (schedule key) block

def decrypt (key block : Block) : Block := crypt (schedule key).reverse block

end CardChannel.Des
