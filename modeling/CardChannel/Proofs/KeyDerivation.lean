import CardChannel.Proofs.KeyLookup
import CardChannel.Proofs.Modes
import CardChannel.Proofs.RetailMac.Standard

/-! What key derivation gives.  `Assigns` says which identifier a usage takes its base key from, and
`Holds` which key a set has under an identifier.  If every identifier has a key, each session key is
the derivation block of its usage, chained under the base key that belongs to the usage; if not, the
first identifier without a key is reported.  There is no other outcome: `derive_outcome`. -/

namespace CardChannel

namespace BaseKeys

/-- The usage takes its base key from under the identifier.  The keys for the MACs of commands and
of responses share theirs, and a single base key serves all. -/
inductive Assigns : BaseKeys → KeyUsage → UInt8 → Prop where
  | single (id : UInt8) (usage : KeyUsage) : Assigns (.single id) usage id
  | enc (enc mac dek : UInt8) : Assigns (.three enc mac dek) .enc enc
  | mac (enc mac dek : UInt8) : Assigns (.three enc mac dek) .mac mac
  | rMac (enc mac dek : UInt8) : Assigns (.three enc mac dek) .rMac mac
  | dek (enc mac dek : UInt8) : Assigns (.three enc mac dek) .dek dek

/-- All identifiers, in the order of their first use. -/
def ids : BaseKeys → List UInt8
  | single id => [id]
  | three enc mac dek => [enc, mac, dek]

variable {base : BaseKeys} {id : UInt8}

theorem assigns_keyId (base : BaseKeys) (usage : KeyUsage) :
    base.Assigns usage (base.keyId usage) := by
  cases base with
  | single id => exact .single id usage
  | three enc mac dek =>
    cases usage with
    | enc => exact .enc enc mac dek
    | mac => exact .mac enc mac dek
    | dek => exact .dek enc mac dek
    | rMac => exact .rMac enc mac dek

theorem mem_ids_iff : id ∈ base.ids ↔ ∃ usage, base.keyId usage = id := by
  cases base with
  | single single =>
    rw [ids, List.mem_singleton]
    exact ⟨fun h => ⟨.enc, h.symm⟩, fun ⟨_, h⟩ => h.symm⟩
  | three enc mac dek =>
    simp only [ids, List.mem_cons, List.not_mem_nil, or_false]
    constructor
    · rintro (rfl | rfl | rfl)
      · exact ⟨.enc, rfl⟩
      · exact ⟨.mac, rfl⟩
      · exact ⟨.dek, rfl⟩
    · rintro ⟨usage, rfl⟩
      cases usage <;> simp [keyId]

/-- A search among the usages is one among the identifiers, for the last usage has none of its
own. -/
theorem find?_ids (base : BaseKeys) (p : UInt8 → Bool) :
    base.ids.find? p = (KeyUsage.all.find? fun usage => p (base.keyId usage)).map base.keyId := by
  cases base with
  | single id => cases h : p id <;> simp [ids, KeyUsage.all, keyId, h]
  | three enc mac dek =>
    cases henc : p enc <;> cases hmac : p mac <;> cases hdek : p dek <;>
      simp [ids, KeyUsage.all, keyId, henc, hmac, hdek]

end BaseKeys

namespace KeySet

/-- The set has the key under the identifier. -/
inductive Holds (set : KeySet) : UInt8 → TripleKey → Prop where
  | enc : Holds set 1 set.enc
  | mac : Holds set 2 set.mac
  | dek : Holds set 3 set.dek

/-- The identifier is the first of those listed under which the set has no key to give. -/
structure FirstMissing (set : KeySet) (version : UInt8) (ids : List UInt8) (id : UInt8) :
    Prop where
  missing : ¬ set.Has id version
  first : ∃ before after, ids = before ++ id :: after ∧ ∀ earlier ∈ before, set.Has earlier version

variable {set : KeySet} {id version : UInt8} {key : TripleKey} {ids : List UInt8}

theorem holds_of_key? (h : set.key? id = some key) : set.Holds id key := by
  rw [key?] at h
  split at h
  · rename_i hid
    rw [hid, ← Option.some.inj h]
    exact .enc
  split at h
  · rename_i hid
    rw [hid, ← Option.some.inj h]
    exact .mac
  split at h
  · rename_i hid
    rw [hid, ← Option.some.inj h]
    exact .dek
  · cases h

theorem firstMissing_iff :
    set.FirstMissing version ids id ↔ ids.find? (fun id => ¬ set.Has id version) = some id := by
  rw [List.find?_eq_some_iff_append]
  simp only [decide_not, Bool.not_eq_eq_eq_not, Bool.not_true, decide_eq_false_iff_not,
    Bool.not_not, decide_eq_true_eq]
  exact ⟨fun h => ⟨h.missing, h.first⟩, fun h => ⟨h.1, h.2⟩⟩

end KeySet

/-- A session key is what the derivation block of its usage is chained to, with its first half once
more at the end. -/
theorem SessionKey.exists_toBytes_derive (base : TripleKey) (usage : KeyUsage)
    (counter : SequenceCounter) :
    ∃ derived, BlockChain base.encrypt .zero
        (usage.constant ++ counter.toList ++ List.replicate 12 0) derived ∧
      (derive base usage counter).toBytes = derived ++ derived.take 8 := by
  obtain ⟨derived, hchain, hkey⟩ := exists_derive_eq_ofOctets base usage counter
  refine ⟨derived.toList, Stepwise.encryptTriple_eq_ok_iff.mp hchain, ?_⟩
  rw [hkey, toBytes_ofOctets]

namespace SessionKeys

variable {set : KeySet} {base : BaseKeys} {version : UInt8} {counter : SequenceCounter}
  {error : Error}

theorem exists_derive_iff_ids :
    (∃ keys, derive set base version counter = .ok keys) ↔
      (set.version = 0 ∨ set.version = version) ∧ ∀ id ∈ base.ids, id = 1 ∨ id = 2 ∨ id = 3 := by
  rw [exists_derive_iff]
  constructor
  · intro h
    refine ⟨(h .enc).version, fun id hmem => ?_⟩
    obtain ⟨usage, rfl⟩ := BaseKeys.mem_ids_iff.mp hmem
    exact (h usage).id
  · rintro ⟨hversion, hids⟩ usage
    exact ⟨hversion, hids _ (BaseKeys.mem_ids_iff.mpr ⟨usage, rfl⟩)⟩

theorem derive_eq_error_iff :
    derive set base version counter = .error error ↔
      ∃ id, set.FirstMissing version base.ids id ∧ error = .keyNotFound id version := by
  have hids (id : UInt8) : set.FirstMissing version base.ids id ↔
      (KeyUsage.all.find? fun usage => ¬ set.Has (base.keyId usage) version).map base.keyId =
        some id := by
    rw [KeySet.firstMissing_iff, BaseKeys.find?_ids]
  simp only [hids]
  cases hmissing : KeyUsage.all.find? fun usage => ¬ set.Has (base.keyId usage) version with
  | some usage =>
    rw [derive_of_missing hmissing]
    constructor
    · intro h
      exact ⟨_, rfl, (Except.error.inj h).symm⟩
    · rintro ⟨id, hid, rfl⟩
      rw [Option.some.inj hid]
  | none =>
    -- Every usage has a key, so that there is nothing to report.
    obtain ⟨keys, hkeys⟩ : ∃ keys, derive set base version counter = .ok keys :=
      exists_derive_iff.mpr (KeyUsage.find?_all_eq_none_iff.mp hmissing)
    rw [hkeys]
    constructor
    · intro h
      cases h
    · rintro ⟨id, hid, -⟩
      cases hid

/-- Session keys are derived exactly if the set answers for the key version and has a key under
every identifier.  The key for each usage is then made, by chaining from zero, of the constant of
the usage and the counter, under the base key that the identifier of the usage stands for.
Otherwise the error names the key version and the first identifier without a key. -/
theorem derive_outcome (set : KeySet) (base : BaseKeys) (version : UInt8)
    (counter : SequenceCounter) :
    Stepwise.deriveKeys set base version counter = derive set base version counter ∧
    ((∃ keys, derive set base version counter = .ok keys) ↔
      (set.version = 0 ∨ set.version = version) ∧ ∀ id ∈ base.ids, id = 1 ∨ id = 2 ∨ id = 3) ∧
    (∀ keys, derive set base version counter = .ok keys →
      ∀ usage, ∃ id found derived, base.Assigns usage id ∧ set.Holds id found ∧
        BlockChain found.encrypt .zero (usage.constant ++ counter.toList ++ List.replicate 12 0)
          derived ∧
        (keys.get usage).toBytes = derived ++ derived.take 8) ∧
    ∀ error, derive set base version counter = .error error ↔
      ∃ id, set.FirstMissing version base.ids id ∧ error = .keyNotFound id version := by
  refine ⟨Stepwise.deriveKeys_eq set base version counter, exists_derive_iff_ids, ?_, fun error =>
    derive_eq_error_iff⟩
  intro keys hkeys usage
  obtain ⟨found, hlookup, hkey⟩ := derive_eq_ok_iff.mp hkeys usage
  obtain ⟨derived, hchain, hbytes⟩ := SessionKey.exists_toBytes_derive found usage counter
  have hfound := (KeySet.lookup_eq_ok_iff.mp hlookup).2
  refine ⟨base.keyId usage, found, derived, base.assigns_keyId usage,
    KeySet.holds_of_key? hfound, hchain, ?_⟩
  rw [hkey, hbytes]

end SessionKeys

end CardChannel
