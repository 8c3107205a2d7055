import CardChannel.Proofs.Padding
import CardChannel.Proofs.Stepwise.Cipher

/-! The retail MAC as the standard has it.  `RetailMac` is MAC algorithm 3 of ISO/IEC 9797-1: DES
chains all of the padded data under one key, and the last block of the chain passes through a second
key and the first again.  A session key chains all but the last block and enciphers that one with
triple DES, which comes to the same because its third part repeats its first:
`mac_meets_standard`. -/

namespace CardChannel

/-- Data of any length under two keys for DES, chained from an initial block. -/
inductive RetailMac (first second initial : Block) (data : List UInt8) : Block → Prop where
  | intro {padded : List UInt8} {last : Block} (padding : Padding.Completes data padded)
      (chained : (Chaining.encrypt (Des.encrypt first) initial (Block.split padded)).getLast? =
        some last) :
      RetailMac first second initial data (Des.encrypt first (Des.decrypt second last))

theorem Chaining.getLast?_encrypt (cipher : Block → Block) (initial : Block) {blocks : List Block}
    (h : blocks ≠ []) :
    (encrypt cipher initial blocks).getLast? = some (mac cipher initial blocks) := by
  obtain ⟨front, last, heq⟩ :=
    (List.eq_nil_or_concat _).resolve_left (encrypt_ne_nil initial h)
  rw [mac_eq_getLastD_encrypt, heq, List.concat_eq_append, List.getLast?_concat,
    List.getLastD_concat]

/-- The standard leaves no choice. -/
theorem retailMac_iff {first second initial mac : Block} {data : List UInt8} :
    RetailMac first second initial data mac ↔
      mac = SessionKey.mac ⟨first, second⟩ initial data := by
  have hchain := Chaining.getLast?_encrypt (Des.encrypt first) initial
    (SessionKey.split_pad_ne_nil data)
  rw [SessionKey.mac_eq_chain]
  constructor
  · rintro ⟨padding, chained⟩
    rw [Padding.completes_iff.mp padding, hchain] at chained
    rw [Option.some.inj chained]
  · rintro rfl
    exact .intro (Padding.completes_pad data) hchain

namespace SessionKey

/-! ### The form of a session key -/

theorem ofOctets_eq (double : Octets 16) :
    ofOctets double = ⟨.ofList (double.toList.take 8), .ofList (double.toList.drop 8)⟩ := by
  have hsecond : (double.toList.drop 8).take 8 = double.toList.drop 8 :=
    List.take_of_length_le (by rw [List.length_drop, double.length_toList])
  rw [← hsecond]
  rfl

theorem toBytes_ofOctets (double : Octets 16) :
    (ofOctets double).toBytes = double.toList ++ double.toList.take 8 := by
  have hfirst : (double.toList.take 8).length = 8 := by
    rw [List.length_take, double.length_toList]
    rfl
  have hsecond : (double.toList.drop 8).length = 8 := by
    rw [List.length_drop, double.length_toList]
  rw [ofOctets_eq, toBytes, toTriple, TripleKey.toBytes]
  simp only [Block.join_cons, Block.join_nil, List.append_nil]
  rw [Block.toBytes_ofList hfirst, Block.toBytes_ofList hsecond, ← List.append_assoc,
    List.take_append_drop]

/-- A derived key is the double-length key that the derivation block is enciphered to. -/
theorem exists_derive_eq_ofOctets (base : TripleKey) (usage : KeyUsage)
    (counter : SequenceCounter) :
    ∃ derived : Octets 16,
      Stepwise.encryptTriple base.toBytes .zero
        (usage.constant ++ counter.toList ++ List.replicate 12 0) = .ok derived.toList ∧
      derive base usage counter = ofOctets derived := by
  have hlen : (usage.constant ++ counter.toList ++ List.replicate 12 0).length = 16 := by
    simp [counter.length_toList]
  have hderive := Stepwise.deriveKey_eq base usage counter
  rw [Stepwise.deriveKey, bind_eq_ok_iff] at hderive
  obtain ⟨bytes, hbytes, hkey⟩ := hderive
  have hblocks := hbytes
  rw [Stepwise.encryptTriple_toBytes base .zero (by rw [hlen])] at hblocks
  have hderived : bytes.length = 16 := by
    rw [← Except.ok.inj hblocks, Block.length_join, Chaining.length_encrypt, Block.length_split,
      hlen]
  exact ⟨⟨bytes, hderived⟩, hbytes, by rw [ofOctets_eq, Except.ok.inj hkey]⟩

/-- A session key of the bytes `first`, `second`, `first` has a MAC for data of every length and
every initial block, and it is the one of the standard.  Every session key is of this form, whether
it is made of a double-length key or derived. -/
theorem mac_meets_standard (first second initial : Block) (data : List UInt8) :
    toBytes ⟨first, second⟩ = first.toBytes ++ second.toBytes ++ first.toBytes ∧
    (∃ mac, Stepwise.mac ⟨first, second⟩ initial data = .ok mac ∧
      SessionKey.mac ⟨first, second⟩ initial data = mac ∧
      ∀ other, RetailMac first second initial data other ↔ other = mac) ∧
    (∀ double : Octets 16,
      (ofOctets double).toBytes = double.toList ++ double.toList.take 8) ∧
    ∀ base usage counter, ∃ derived : Octets 16,
      Stepwise.encryptTriple base.toBytes .zero
        (usage.constant ++ counter.toList ++ List.replicate 12 0) = .ok derived.toList ∧
      derive base usage counter = ofOctets derived := by
  refine ⟨by simp [toBytes, toTriple, TripleKey.toBytes], ?_, toBytes_ofOctets,
    exists_derive_eq_ofOctets⟩
  exact ⟨_, Stepwise.mac_eq _ initial data, rfl, fun other => retailMac_iff⟩

/-- A recorded MAC. -/
example : SessionKey.mac ⟨⟨0x5B02E75AD63190AE⟩, ⟨0xCE0622936F11ABAB⟩⟩ .zero
    [0x84, 0x82, 0x01, 0x00, 0x10, 0x81, 0x0B, 0x09, 0x8A, 0x8F, 0xBB, 0x88, 0xDA] =
      ⟨0x5271D7174A5A166A⟩ := by
  decide +kernel

end SessionKey

end CardChannel
