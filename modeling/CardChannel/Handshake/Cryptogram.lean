import CardChannel.Keys.Derivation

/-! The cryptograms by which card and host prove that they hold the same key.  Both sides chain the
sequence counter and the two challenges and keep the last block; the order of the challenges tells
the cryptogram of the card from that of the host. -/

namespace CardChannel

abbrev CardChallenge := Octets 6

namespace Cryptogram

/-- The last block of the padded data chained from zero. -/
def ofData (key : SessionKey) (data : List UInt8) : Block :=
  Chaining.mac key.encrypt .zero (Block.split (Padding.pad data))

def card (key : SessionKey) (counter : SequenceCounter) (cardChallenge : CardChallenge)
    (hostChallenge : Block) : Block :=
  ofData key (hostChallenge.toBytes ++ counter.toList ++ cardChallenge.toList)

def host (key : SessionKey) (counter : SequenceCounter) (cardChallenge : CardChallenge)
    (hostChallenge : Block) : Block :=
  ofData key (counter.toList ++ cardChallenge.toList ++ hostChallenge.toBytes)

end Cryptogram

end CardChannel
