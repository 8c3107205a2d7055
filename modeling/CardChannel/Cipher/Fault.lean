/-! Why a cryptographic operation refuses its input.  Each cause is about lengths or padding; the
block cipher itself takes every block under every key. -/

namespace CardChannel.Cipher

inductive Fault where
  /-- The input is not a whole number of blocks. -/
  | misaligned
  /-- The padded data are empty or not a whole number of blocks. -/
  | paddingMisaligned
  | paddingInvalid
  | keyLength
  | staticKeyLength
deriving DecidableEq, Repr

def Fault.text : Fault → String
  | misaligned => "input is not a multiple of the block size"
  | paddingMisaligned => "padded data is not block aligned"
  | paddingInvalid => "invalid ISO 7816-4 padding"
  | keyLength => "invalid key length"
  | staticKeyLength => "static keys must be 16 or 24 bytes"

end CardChannel.Cipher
