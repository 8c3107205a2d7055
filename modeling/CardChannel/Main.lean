import CardChannel.Tool

/-! The command line of the calculator. -/

def main (args : List String) : IO UInt32 := do
  let outcome := CardChannel.Tool.answer args
  for line in outcome.lines do
    IO.println line
  if let some complaint := outcome.complaint then
    IO.eprint complaint
  return outcome.code.toUInt32
