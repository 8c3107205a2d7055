import CardChannel.Handshake.Cryptogram
import CardChannel.Proofs.RetailMac

/-! The cryptograms as functions of what they are taken over.  Three blocks are chained: the host
challenge and the counter with the card challenge, in an order that depends on the side, and the
padding.  Since every block of the chain is permuted, another host challenge gives another
cryptogram, and for the card so does another card challenge. -/

namespace CardChannel

namespace Padding

/-- Two whole blocks are followed by a block of padding alone. -/
theorem pad_of_length_sixteen {data : List UInt8} (h : data.length = 16) :
    pad data = data ++ marker :: List.replicate 7 0 := by
  rw [pad, h]
  rfl

end Padding

namespace Cryptogram

variable (key : SessionKey) (counter : SequenceCounter)

theorem card_eq (cardChallenge : CardChallenge) (hostChallenge : Block) :
    card key counter cardChallenge hostChallenge =
      Chaining.mac key.encrypt .zero
        [hostChallenge, .ofList (counter.toList ++ cardChallenge.toList),
          .ofList (Padding.marker :: List.replicate 7 0)] := by
  have hsecond : (counter.toList ++ cardChallenge.toList).length = 8 := by
    simp [Octets.length_toList]
  have hdata : (hostChallenge.toBytes ++ (counter.toList ++ cardChallenge.toList)).length = 16 := by
    rw [List.length_append, hsecond, Block.length_toBytes]
  rw [card, ofData, List.append_assoc, Padding.pad_of_length_sixteen hdata, List.append_assoc,
    Block.split_append_eight (Block.length_toBytes _), Block.ofList_toBytes,
    Block.split_append_eight hsecond]
  rfl

theorem card_hostChallenge_inj {cardChallenge : CardChallenge} {a b : Block} :
    card key counter cardChallenge a = card key counter cardChallenge b ↔ a = b := by
  rw [card_eq, card_eq]
  exact Chaining.mac_block_inj key.encrypt_injective [] _

theorem card_cardChallenge_inj {hostChallenge : Block} {a b : CardChallenge} :
    card key counter a hostChallenge = card key counter b hostChallenge ↔ a = b := by
  have hlength (c : CardChallenge) : (counter.toList ++ c.toList).length = 8 := by
    simp [Octets.length_toList]
  rw [card_eq, card_eq]
  refine (Chaining.mac_block_inj key.encrypt_injective [hostChallenge] _).trans ?_
  rw [Block.ofList_inj (hlength a) (hlength b), List.append_cancel_left_eq]
  exact ⟨Octets.ext, congrArg Octets.toList⟩

/-- In the cryptogram of the host, its challenge is the second block. -/
theorem host_eq (cardChallenge : CardChallenge) (hostChallenge : Block) :
    host key counter cardChallenge hostChallenge =
      Chaining.mac key.encrypt .zero
        [.ofList (counter.toList ++ cardChallenge.toList), hostChallenge,
          .ofList (Padding.marker :: List.replicate 7 0)] := by
  have hfirst : (counter.toList ++ cardChallenge.toList).length = 8 := by
    simp [Octets.length_toList]
  have hdata : (counter.toList ++ cardChallenge.toList ++ hostChallenge.toBytes).length = 16 := by
    rw [List.length_append, hfirst, Block.length_toBytes]
  rw [host, ofData, Padding.pad_of_length_sixteen hdata, List.append_assoc,
    Block.split_append_eight hfirst, Block.split_append_eight (Block.length_toBytes _),
    Block.ofList_toBytes]
  rfl

theorem host_hostChallenge_inj {cardChallenge : CardChallenge} {a b : Block} :
    host key counter cardChallenge a = host key counter cardChallenge b ↔ a = b := by
  rw [host_eq, host_eq]
  exact Chaining.mac_block_inj key.encrypt_injective
    [.ofList (counter.toList ++ cardChallenge.toList)] _

end Cryptogram

end CardChannel
