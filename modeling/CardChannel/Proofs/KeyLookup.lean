import CardChannel.Proofs.KeySeparation

/-! Where base keys come from.  A key set has keys under three identifiers and answers for one key
version or for all of them; `KeySet.Has` says that it has a key to give.  Session keys are derived
if the set has a key for every usage, and otherwise the first usage that lacks one is reported:
`SessionKeys.exists_derive_iff` and `SessionKeys.derive_of_missing`. -/

namespace CardChannel

/-- The set answers for the key version and has a key under the identifier. -/
structure KeySet.Has (set : KeySet) (id version : UInt8) : Prop where
  version : set.version = 0 ∨ set.version = version
  id : id = 1 ∨ id = 2 ∨ id = 3

namespace KeySet

variable {set : KeySet} {id version : UInt8} {key : TripleKey}

instance : Decidable (set.Has id version) :=
  decidable_of_iff ((set.version = 0 ∨ set.version = version) ∧ (id = 1 ∨ id = 2 ∨ id = 3))
    ⟨fun ⟨hversion, hid⟩ => ⟨hversion, hid⟩, fun h => ⟨h.version, h.id⟩⟩

theorem answersFor_iff :
    set.answersFor version = true ↔ set.version = 0 ∨ set.version = version := by
  simp only [answersFor, anyKeyVersion, Bool.or_eq_true, beq_iff_eq, eq_comm (a := version)]

theorem isSome_key?_iff : (set.key? id).isSome ↔ id = 1 ∨ id = 2 ∨ id = 3 := by
  rw [key?, KeyId.enc, KeyId.mac, KeyId.dek]
  by_cases h₁ : id = 1
  · simp [h₁]
  by_cases h₂ : id = 2
  · simp [h₂]
  by_cases h₃ : id = 3 <;> simp [h₁, h₂, h₃]

theorem lookup_eq_ok_iff :
    set.lookup id version = .ok key ↔ set.Has id version ∧ set.key? id = some key := by
  unfold lookup
  split
  · rename_i found hanswers hfound
    have hid := isSome_key?_iff.mp (Option.isSome_of_eq_some hfound)
    rw [hfound, Except.ok.injEq, Option.some.injEq]
    exact ⟨fun h => ⟨⟨answersFor_iff.mp hanswers, hid⟩, h⟩, fun h => h.2⟩
  · rename_i hmissing
    refine ⟨nofun, fun ⟨hhas, hkey⟩ => ?_⟩
    exact absurd hkey (hmissing _ (answersFor_iff.mpr hhas.version))

theorem Has.exists_lookup (h : set.Has id version) :
    ∃ key, set.lookup id version = .ok key := by
  obtain ⟨key, hkey⟩ := Option.isSome_iff_exists.mp (isSome_key?_iff.mpr h.id)
  exact ⟨key, lookup_eq_ok_iff.mpr ⟨h, hkey⟩⟩

theorem lookup_of_not_has (h : ¬ set.Has id version) :
    set.lookup id version = .error (.keyNotFound id version) := by
  cases hlookup : set.lookup id version with
  | ok key => exact absurd (lookup_eq_ok_iff.mp hlookup).1 h
  | error error =>
    unfold lookup at hlookup
    split at hlookup <;> cases hlookup
    rfl

end KeySet

/-- A search among all usages that finds none has seen every one. -/
theorem KeyUsage.find?_all_eq_none_iff {p : KeyUsage → Prop} [DecidablePred p] :
    all.find? (fun usage => ¬ p usage) = none ↔ ∀ usage, p usage := by
  have hall (usage : KeyUsage) : usage ∈ all := by cases usage <;> decide
  simp only [List.find?_eq_none, decide_not, Bool.not_eq_true', Bool.not_eq_false,
    decide_eq_true_eq, hall, true_implies]

namespace SessionKeys

variable {set : KeySet} {base : BaseKeys} {version : UInt8} {counter : SequenceCounter}
  {usage : KeyUsage}

theorem exists_derive_iff :
    (∃ keys, derive set base version counter = .ok keys) ↔
      ∀ usage, set.Has (base.keyId usage) version := by
  constructor
  · rintro ⟨keys, h⟩ usage
    obtain ⟨found, hfound, -⟩ := derive_eq_ok_iff.mp h usage
    exact (KeySet.lookup_eq_ok_iff.mp hfound).1
  · intro h
    choose found hfound using fun usage => (h usage).exists_lookup
    let key (usage : KeyUsage) : SessionKey := .derive (found usage) usage counter
    refine ⟨⟨key .enc, key .mac, key .dek, key .rMac⟩, derive_eq_ok_iff.mpr fun usage => ?_⟩
    exact ⟨found usage, hfound usage, by cases usage <;> rfl⟩

/-- The first usage without a key is the one that is reported. -/
theorem derive_of_missing
    (h : KeyUsage.all.find? (fun usage => ¬ set.Has (base.keyId usage) version) = some usage) :
    derive set base version counter = .error (.keyNotFound (base.keyId usage) version) := by
  have hanswer (usage : KeyUsage) :
      (set.Has (base.keyId usage) version ∧
        ∃ key, set.provider.sessionKey version counter (base.keyId usage) usage = .ok key) ∨
      (¬ set.Has (base.keyId usage) version ∧
        set.provider.sessionKey version counter (base.keyId usage) usage =
          .error (.keyNotFound (base.keyId usage) version)) := by
    rw [KeySet.sessionKey_provider]
    by_cases hhas : set.Has (base.keyId usage) version
    · obtain ⟨found, hfound⟩ := hhas.exists_lookup
      exact .inl ⟨hhas, _, by rw [hfound]; rfl⟩
    · exact .inr ⟨hhas, by rw [KeySet.lookup_of_not_has hhas]; rfl⟩
  obtain ⟨henc, enc, hkey₁⟩ | ⟨henc, hkey₁⟩ := hanswer .enc
  case inr =>
    obtain rfl : .enc = usage := by simpa [KeyUsage.all, henc] using h
    simp only [derive, hkey₁]
    rfl
  obtain ⟨hmac, mac, hkey₂⟩ | ⟨hmac, hkey₂⟩ := hanswer .mac
  case inr =>
    obtain rfl : .mac = usage := by simpa [KeyUsage.all, henc, hmac] using h
    simp only [derive, hkey₁, hkey₂]
    rfl
  obtain ⟨hdek, dek, hkey₃⟩ | ⟨hdek, hkey₃⟩ := hanswer .dek
  case inr =>
    obtain rfl : .dek = usage := by simpa [KeyUsage.all, henc, hmac, hdek] using h
    simp only [derive, hkey₁, hkey₂, hkey₃]
    rfl
  -- The keys for responses are derived from the base key for commands, which is there.
  have hrMac : set.Has (base.keyId .rMac) version := keyId_rMac base ▸ hmac
  simp [KeyUsage.all, henc, hmac, hdek, hrMac] at h

end SessionKeys

end CardChannel
