import CardChannel.Block

/-! Cipher block chaining over a sequence of blocks.  Each block is added to the one enciphered
before it, the first to an initial value.  `mac` keeps the last result only. -/

namespace CardChannel.Chaining

def encrypt (cipher : Block → Block) (initial : Block) : List Block → List Block
  | [] => []
  | block :: rest =>
    let result := cipher (block ^^^ initial)
    result :: encrypt cipher result rest

def decrypt (decipher : Block → Block) (initial : Block) : List Block → List Block
  | [] => []
  | block :: rest => (decipher block ^^^ initial) :: decrypt decipher block rest

/-- The chaining value after a sequence of blocks. -/
def mac (cipher : Block → Block) (initial : Block) (blocks : List Block) : Block :=
  blocks.foldl (fun chain block => cipher (block ^^^ chain)) initial

theorem mac_eq_getLastD_encrypt (cipher : Block → Block) (initial : Block) (blocks : List Block) :
    mac cipher initial blocks = (encrypt cipher initial blocks).getLastD initial := by
  induction blocks generalizing initial with
  | nil => rfl
  | cons block rest ih =>
    have step : mac cipher initial (block :: rest) =
        mac cipher (cipher (block ^^^ initial)) rest := rfl
    rw [step, ih, encrypt, List.getLastD_cons]

end CardChannel.Chaining
