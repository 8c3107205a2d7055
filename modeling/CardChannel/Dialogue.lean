import CardChannel.Block
import CardChannel.Apdu.Error

/-! Conversations with a card.  A dialogue is what the host does next: it ends with a value, sends a
command and goes on with whatever comes back, or draws a host challenge at random.  A dialogue
decides nothing about the other side; `run` plays it against a reader. -/

namespace CardChannel

/-- What a reader gives back for a command: the raw answer of the card, or why there is none. -/
abbrev Reply := Except TransportError (List UInt8)

inductive Dialogue (α : Type) where
  | done (value : α)
  | send (apdu : List UInt8) (next : Reply → Dialogue α)
  | draw (next : Block → Dialogue α)

namespace Dialogue

variable {α β σ : Type}

def bind : Dialogue α → (α → Dialogue β) → Dialogue β
  | done value, f => f value
  | send apdu next, f => send apdu fun reply => (next reply).bind f
  | draw next, f => draw fun challenge => (next challenge).bind f

instance : Monad Dialogue where
  pure := done
  bind := bind

/-- Send a command and wait for the answer. -/
def exchange (apdu : List UInt8) : Dialogue Reply := send apdu done

def drawChallenge : Dialogue Block := draw done

end Dialogue

/-- A card in a reader, with a source of random challenges, as a machine with states in `σ`. -/
structure Reader (σ : Type) where
  exchange : List UInt8 → σ → Reply × σ
  challenge : σ → Block × σ

namespace Dialogue

variable {α σ : Type}

def run (reader : Reader σ) : Dialogue α → σ → α × σ
  | done value, state => (value, state)
  | send apdu next, state =>
    let (reply, state) := reader.exchange apdu state
    (next reply).run reader state
  | draw next, state =>
    let (challenge, state) := reader.challenge state
    (next challenge).run reader state

end Dialogue

end CardChannel
