import CardChannel.Handshake.Cryptogram
import CardChannel.Proofs.RetailMac

/-! The cryptographic operations with every check of a length in its place.  Here keys are byte
strings, data are cut and joined by position, and each use of a cipher fails if its key or its data
have the wrong length.  Keys and blocks carry their lengths elsewhere, and the same operations
cannot fail there.  The two agree, so none of the checks is ever the reason for an error: each
theorem gives one operation here as `.ok` of the one that it stands for. -/

namespace CardChannel.Stepwise

open Cipher

/-- The last eight bytes. -/
def lastBlock (bytes : List UInt8) : Block := .ofList (bytes.drop (bytes.length - 8))

/-- A key for single DES. -/
def singleKey (bytes : List UInt8) : Except Fault Block :=
  match Octets.ofBytes? 8 bytes with
  | some octets => .ok (.ofOctets octets)
  | none => .error .keyLength

/-- Single DES in chaining mode, over as many whole blocks as there are. -/
def encryptSingle (key : List UInt8) (initial : Block) (data : List UInt8) :
    Except Fault (List UInt8) := do
  let key ← singleKey key
  return Block.join (Chaining.encrypt (Des.encrypt key) initial (Block.split data))

/-- Triple DES in chaining mode. -/
def encryptTriple (key : List UInt8) (initial : Block) (data : List UInt8) :
    Except Fault (List UInt8) :=
  if data.length % 8 ≠ 0 then .error .misaligned
  else do
    let key ← TripleKey.ofTripleLength key
    return Block.join (Chaining.encrypt key.encrypt initial (Block.split data))

/-- The chaining value after all blocks but the last.  Where there are none, single DES is not used
at all. -/
def chainHead (key : SessionKey) (initial : Block) (head : List UInt8) : Except Fault Block :=
  if head = [] then .ok initial
  else do return lastBlock (← encryptSingle (key.toBytes.take 8) initial head)

/-- The retail MAC. -/
def mac (key : SessionKey) (initial : Block) (data : List UInt8) : Except Fault Block := do
  let padded := Padding.pad data
  let chain ← chainHead key initial (padded.take (padded.length - 8))
  let triple ← TripleKey.ofTripleLength key.toBytes
  return triple.encrypt (lastBlock padded ^^^ chain)

def encryptIcv (key : SessionKey) (icv : Block) : Except Fault Block := do
  let single ← singleKey (key.toBytes.take 8)
  return Des.encrypt single icv

def encryptPadded (key : SessionKey) (data : List UInt8) : Except Fault (List UInt8) :=
  encryptTriple key.toBytes .zero (Padding.pad data)

def decryptPadded (key : SessionKey) (data : List UInt8) : Except Fault (List UInt8) :=
  if data.length % 8 ≠ 0 then .error .misaligned
  else do
    let triple ← TripleKey.ofTripleLength key.toBytes
    Padding.unpad (Block.join (Chaining.decrypt triple.decrypt .zero (Block.split data)))

def encryptBlocks (key : SessionKey) (data : List UInt8) : Except Fault (List UInt8) :=
  if data.length % 8 ≠ 0 then .error .misaligned
  else do
    let triple ← TripleKey.ofTripleLength key.toBytes
    return Block.join ((Block.split data).map triple.encrypt)

/-- A cryptogram over what the two sides have exchanged. -/
def cryptogram (key : SessionKey) (data : List UInt8) : Except Fault Block := do
  return lastBlock (← encryptTriple key.toBytes .zero (Padding.pad data))

/-- A session key is two blocks long: the constant, the counter and twelve zeros, enciphered. -/
def deriveKey (base : TripleKey) (usage : KeyUsage) (counter : SequenceCounter) :
    Except Fault SessionKey := do
  let derived ← encryptTriple base.toBytes .zero
    (usage.constant ++ counter.toList ++ List.replicate 12 0)
  return ⟨.ofList (derived.take 8), .ofList (derived.drop 8)⟩

def deriveKeys (set : KeySet) (base : BaseKeys) (keyVersion : UInt8) (counter : SequenceCounter) :
    Except Error SessionKeys := do
  let key (usage : KeyUsage) : Except Error SessionKey := do
    let found ← set.lookup (base.keyId usage) keyVersion
    (deriveKey found usage counter).mapError .ofFault
  return ⟨← key .enc, ← key .mac, ← key .dek, ← key .rMac⟩

/-! ### Lengths are right -/

theorem lastBlock_append_toBytes (front : List UInt8) (b : Block) :
    lastBlock (front ++ b.toBytes) = b := by
  rw [lastBlock, List.length_append, Block.length_toBytes, Nat.add_sub_cancel, List.drop_left,
    Block.ofList_toBytes]

theorem lastBlock_join {blocks : List Block} (h : blocks ≠ []) (default : Block) :
    lastBlock (Block.join blocks) = blocks.getLastD default := by
  obtain ⟨front, last, rfl⟩ := (List.eq_nil_or_concat blocks).resolve_left h
  rw [List.concat_eq_append, Block.join_append, List.getLastD_concat, Block.join_cons,
    Block.join_nil, List.append_nil, lastBlock_append_toBytes]

theorem singleKey_toBytes (b : Block) : singleKey b.toBytes = .ok b := by
  rw [singleKey, Octets.ofBytes?, dif_pos b.length_toBytes]
  exact congrArg Except.ok b.ofList_toBytes

theorem take_toBytes (key : SessionKey) : key.toBytes.take 8 = key.left.toBytes := rfl

theorem ofTripleLength_toBytes (key : TripleKey) :
    TripleKey.ofTripleLength key.toBytes = .ok key := by
  obtain ⟨first, second, third⟩ := key
  have hlen : (TripleKey.toBytes ⟨first, second, third⟩).length = 24 := rfl
  have hparts : TripleKey.ofOctets ⟨_, hlen⟩ = ⟨first, second, third⟩ :=
    TripleKey.mk.injEq .. ▸ ⟨first.ofList_toBytes, second.ofList_toBytes, third.ofList_toBytes⟩
  rw [TripleKey.ofTripleLength, Octets.ofBytes?, dif_pos hlen]
  exact congrArg Except.ok hparts

theorem encryptSingle_toBytes (key initial : Block) (data : List UInt8) :
    encryptSingle key.toBytes initial data =
      .ok (Block.join (Chaining.encrypt (Des.encrypt key) initial (Block.split data))) := by
  rw [encryptSingle, singleKey_toBytes]
  rfl

theorem encryptTriple_toBytes (key : TripleKey) (initial : Block) {data : List UInt8}
    (h : data.length % 8 = 0) :
    encryptTriple key.toBytes initial data =
      .ok (Block.join (Chaining.encrypt key.encrypt initial (Block.split data))) := by
  rw [encryptTriple, if_neg (not_not_intro h), ofTripleLength_toBytes]
  rfl

/-! ### The operations are the same -/

/-- The last chained block is the chaining value after all of them. -/
theorem lastBlock_encrypt (cipher : Block → Block) (initial : Block) {blocks : List Block}
    (h : blocks ≠ []) :
    lastBlock (Block.join (Chaining.encrypt cipher initial blocks)) =
      Chaining.mac cipher initial blocks := by
  rw [lastBlock_join (Chaining.encrypt_ne_nil initial h) initial, Chaining.mac_eq_getLastD_encrypt]

theorem chainHead_join (key : SessionKey) (initial : Block) (blocks : List Block) :
    chainHead key initial (Block.join blocks) =
      .ok (Chaining.mac (Des.encrypt key.left) initial blocks) := by
  cases blocks with
  | nil => rfl
  | cons first rest =>
    have hne : Block.join (first :: rest) ≠ [] := List.cons_ne_nil _ _
    rw [chainHead, if_neg hne, take_toBytes, encryptSingle_toBytes, Block.split_join]
    exact congrArg Except.ok (lastBlock_encrypt _ _ (List.cons_ne_nil _ _))

theorem mac_eq (key : SessionKey) (initial : Block) (data : List UInt8) :
    mac key initial data = .ok (key.mac initial data) := by
  obtain ⟨front, last, hsplit⟩ := SessionKey.exists_split_pad data
  have hpad : Padding.pad data = Block.join front ++ last.toBytes := by
    rw [← Block.join_split (Padding.length_pad_mod data), hsplit]
    simp
  have hhead : (Padding.pad data).take ((Padding.pad data).length - 8) = Block.join front := by
    rw [hpad, List.length_append, Block.length_toBytes, Nat.add_sub_cancel, List.take_left]
  rw [mac]
  simp only [hhead, chainHead_join, SessionKey.toBytes, ofTripleLength_toBytes, bind, Except.bind,
    pure, Except.pure]
  rw [SessionKey.mac, hsplit, hpad, lastBlock_append_toBytes, List.dropLast_concat,
    List.getLastD_concat]
  rfl

theorem encryptIcv_eq (key : SessionKey) (icv : Block) :
    encryptIcv key icv = .ok (key.encryptIcv icv) := by
  rw [encryptIcv, take_toBytes, singleKey_toBytes]
  rfl

theorem encryptPadded_eq (key : SessionKey) (data : List UInt8) :
    encryptPadded key data = .ok (key.encryptPadded data) :=
  encryptTriple_toBytes key.toTriple .zero (Padding.length_pad_mod data)

theorem decryptPadded_eq (key : SessionKey) (data : List UInt8) :
    decryptPadded key data = key.decryptPadded data := by
  rw [decryptPadded, SessionKey.decryptPadded, SessionKey.toBytes, ofTripleLength_toBytes, ite_not]
  rfl

theorem encryptBlocks_eq (key : SessionKey) (data : List UInt8) :
    encryptBlocks key data = key.encryptBlocks data := by
  rw [encryptBlocks, SessionKey.encryptBlocks, SessionKey.toBytes, ofTripleLength_toBytes, ite_not]
  rfl

theorem cryptogram_eq (key : SessionKey) (data : List UInt8) :
    cryptogram key data = .ok (Cryptogram.ofData key data) := by
  rw [cryptogram, SessionKey.toBytes, encryptTriple_toBytes _ _ (Padding.length_pad_mod data)]
  exact congrArg Except.ok (lastBlock_encrypt _ _ (SessionKey.split_pad_ne_nil data))

theorem deriveKey_eq (base : TripleKey) (usage : KeyUsage) (counter : SequenceCounter) :
    deriveKey base usage counter = .ok (SessionKey.derive base usage counter) := by
  let first := usage.constant ++ counter.toList ++ List.replicate 4 0
  have hlen : first.length = 8 := SessionKey.length_first usage counter
  -- The second block is zero, so that its result is the first one enciphered again.
  have hsplit : Block.split (usage.constant ++ counter.toList ++ List.replicate 12 0) =
      [.ofList first, .zero] := by
    have hzeros : (List.replicate 12 0 : List UInt8) = List.replicate 4 0 ++ List.replicate 8 0 :=
      rfl
    rw [hzeros, ← List.append_assoc, Block.split_append_eight hlen]
    rfl
  have hmod : (usage.constant ++ counter.toList ++ List.replicate 12 0).length % 8 = 0 := by
    simp [counter.length_toList]
  rw [deriveKey, encryptTriple_toBytes _ _ hmod, hsplit]
  simp only [Chaining.encrypt, bind, Except.bind, pure, Except.pure, Block.join_cons,
    Block.join_nil, List.append_nil, Block.xor_zero, SessionKey.derive]
  rw [List.take_left' (Block.length_toBytes _), List.drop_left' (Block.length_toBytes _),
    Block.ofList_toBytes, Block.ofList_toBytes, Block.xor_comm, Block.xor_zero]

theorem deriveKeys_eq (set : KeySet) (base : BaseKeys) (keyVersion : UInt8)
    (counter : SequenceCounter) :
    deriveKeys set base keyVersion counter = SessionKeys.derive set base keyVersion counter := by
  simp only [deriveKeys, SessionKeys.derive, deriveKey_eq]
  rfl

end CardChannel.Stepwise
