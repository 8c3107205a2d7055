import CardChannel.Dialogue

/-! A reader that plays back recorded answers, for replaying a conversation offline.  It keeps the
commands that it was sent.  Without a card it refuses each command and records nothing; when the
answers run out, the transmission fails. -/

namespace CardChannel

structure Replay where
  connected : Bool
  replies : List Reply
  /-- Random bytes not yet drawn; zeros follow the last. -/
  randomness : List UInt8
  sent : List (List UInt8)

namespace Replay

def exchange (apdu : List UInt8) (r : Replay) : Reply × Replay :=
  if r.connected then
    let r := { r with sent := r.sent ++ [apdu] }
    match r.replies with
    | [] => (.error .transmission, r)
    | reply :: rest => (reply, { r with replies := rest })
  else (.error .connection, r)

/-- The next eight random bytes. -/
def challenge (r : Replay) : Block × Replay :=
  let bytes := r.randomness.take 8
  (.ofList (bytes ++ List.replicate (8 - bytes.length) 0),
    { r with randomness := r.randomness.drop 8 })

def reader : Reader Replay := ⟨exchange, challenge⟩

/-- Put the card back and forget what was sent. -/
def reset (r : Replay) : Replay := { r with connected := true, sent := [] }

def disconnect (r : Replay) : Replay := { r with connected := false }

end Replay

end CardChannel
