import Mathlib.Tactic.Choose
import CardChannel.Cipher.Inverse
import CardChannel.Keys.Derivation

/-! Session keys that are told apart.  The first half of a session key is one block, in which the
constant of the usage and the sequence counter have their places, enciphered under the base key.
The cipher permutes the blocks, so that under one base key no two usages and no two counters have
the same first half: `SessionKey.derive_left_inj`.  Of the keys of a session, those for the MACs of
commands and of responses always have their base key in common, and those of two sessions that
differ in the counter only have it for each usage: `SessionKeys.derive_separates`. -/

namespace CardChannel

theorem KeyUsage.constant_inj {a b : KeyUsage} : a.constant = b.constant ↔ a = b := by
  cases a <;> cases b <;> decide

namespace SessionKey

/-- The two keys differ already in their first eight bytes. -/
def Apart (a b : SessionKey) : Prop := a.toBytes.take 8 ≠ b.toBytes.take 8

theorem apart_iff {a b : SessionKey} : a.Apart b ↔ a.left ≠ b.left :=
  not_congr Block.toBytes_inj

theorem derive_left_inj {base : TripleKey} {usage usage' : KeyUsage}
    {counter counter' : SequenceCounter} :
    (derive base usage counter).left = (derive base usage' counter').left ↔
      usage = usage' ∧ counter = counter' := by
  constructor
  · intro h
    have hblock := base.encrypt_injective h
    rw [Block.ofList_inj (length_first _ _) (length_first _ _),
      List.append_cancel_right_eq] at hblock
    obtain ⟨hconstant, hcounter⟩ := List.append_inj hblock (by simp)
    exact ⟨KeyUsage.constant_inj.mp hconstant, Octets.ext hcounter⟩
  · rintro ⟨rfl, rfl⟩
    rfl

theorem derive_apart (base : TripleKey) {usage usage' : KeyUsage}
    {counter counter' : SequenceCounter} (h : (usage, counter) ≠ (usage', counter')) :
    (derive base usage counter).Apart (derive base usage' counter') := by
  rw [apart_iff, Ne, derive_left_inj, ← Prod.mk.injEq]
  exact h

end SessionKey

namespace SessionKeys

variable {set : KeySet} {base : BaseKeys} {version : UInt8} {counter counter' : SequenceCounter}
  {keys keys' : SessionKeys} {usage usage' : KeyUsage}

/-- Every key is the one that the provider gives for its usage. -/
theorem provided_iff {provider : KeyProvider} :
    derive provider base version counter = .ok keys ↔
      ∀ usage, provider.sessionKey version counter (base.keyId usage) usage =
        .ok (keys.get usage) := by
  simp only [derive, bind_eq_ok_iff, pure, Except.pure, Except.ok.injEq]
  constructor
  · rintro ⟨enc, henc, mac, hmac, dek, hdek, rMac, hrMac, rfl⟩ usage
    cases usage with
    | enc => exact henc
    | mac => exact hmac
    | dek => exact hdek
    | rMac => exact hrMac
  · intro h
    exact ⟨_, h .enc, _, h .mac, _, h .dek, _, h .rMac, rfl⟩

/-- Every key is derived from the base key that is found for its usage. -/
theorem derive_eq_ok_iff :
    derive set base version counter = .ok keys ↔
      ∀ usage, ∃ found, set.lookup (base.keyId usage) version = .ok found ∧
        keys.get usage = .derive found usage counter := by
  simp only [provided_iff, KeySet.sessionKey_provider, map_eq_ok_iff, eq_comm (a := keys.get _)]

/-- Whether there are keys does not depend on the counter. -/
theorem exists_derive (h : derive set base version counter = .ok keys)
    (counter' : SequenceCounter) : ∃ keys', derive set base version counter' = .ok keys' := by
  choose found hfound _ using derive_eq_ok_iff.mp h
  let key (usage : KeyUsage) : SessionKey := .derive (found usage) usage counter'
  refine ⟨⟨key .enc, key .mac, key .dek, key .rMac⟩, derive_eq_ok_iff.mpr fun usage => ?_⟩
  exact ⟨found usage, hfound usage, by cases usage <;> rfl⟩

/-- Keys with one base key are apart unless they are derived for the same purpose and counter. -/
theorem get_apart (h : derive set base version counter = .ok keys)
    (h' : derive set base version counter' = .ok keys')
    (hid : base.keyId usage = base.keyId usage') (hne : (usage, counter) ≠ (usage', counter')) :
    (keys.get usage).Apart (keys'.get usage') := by
  obtain ⟨found, hfound, hkey⟩ := derive_eq_ok_iff.mp h usage
  obtain ⟨found', hfound', hkey'⟩ := derive_eq_ok_iff.mp h' usage'
  obtain rfl : found = found' := by
    rw [hid, hfound'] at hfound
    exact (Except.ok.inj hfound).symm
  rw [hkey, hkey']
  exact SessionKey.derive_apart found hne

theorem keyId_rMac (base : BaseKeys) : base.keyId .mac = base.keyId .rMac := by
  cases base <;> rfl

/-- Under one base key, two usages or two counters always lead to keys that differ in their first
eight bytes.  So the keys of a session for the MACs of commands and of responses differ; all of its
keys do when they have one base key; and each of them differs from the key of the same usage in any
session with another counter. -/
theorem derive_separates (key : TripleKey) (set : KeySet) (base : BaseKeys) (version : UInt8)
    (counter : SequenceCounter) :
    (∀ usage usage' counter', (usage, counter) ≠ (usage', counter') →
      (SessionKey.derive key usage counter).Apart (SessionKey.derive key usage' counter')) ∧
    ∀ keys, derive set base version counter = .ok keys →
      keys.mac.Apart keys.rMac ∧
      (∀ id, base = .single id → ∀ usage usage', usage ≠ usage' →
        (keys.get usage).Apart (keys.get usage')) ∧
      ∀ counter', counter' ≠ counter → ∃ keys', derive set base version counter' = .ok keys' ∧
        ∀ usage, (keys.get usage).Apart (keys'.get usage) := by
  refine ⟨fun _ _ _ => SessionKey.derive_apart key, fun keys derived => ⟨?_, ?_, ?_⟩⟩
  · have hmac : (keys.get .mac).Apart (keys.get .rMac) :=
      get_apart derived derived (keyId_rMac base) nofun
    exact hmac
  · rintro id rfl usage usage' hne
    exact get_apart derived derived rfl fun heq => hne (Prod.mk.inj heq).1
  · intro counter' hne
    obtain ⟨keys', hkeys'⟩ := exists_derive derived counter'
    refine ⟨keys', hkeys', fun usage => get_apart derived hkeys' rfl fun heq => ?_⟩
    exact hne (Prod.mk.inj heq).2.symm

/-- The keys of a recorded session, in which all usages have one base key, are apart from each other
and from those of the next session. -/
theorem derive_separates_recorded :
    ∃ keys, derive KeySet.default (.single KeyId.enc) 0x01 ⟨[0x00, 0x04], rfl⟩ = .ok keys ∧
      keys.mac = ⟨⟨0xC8F6243ECF0DF436⟩, ⟨0xAF901514F65C7EF9⟩⟩ ∧
      (∀ usage usage', usage ≠ usage' → (keys.get usage).Apart (keys.get usage')) ∧
      ∃ next, derive KeySet.default (.single KeyId.enc) 0x01 ⟨[0x00, 0x05], rfl⟩ = .ok next ∧
        ∀ usage, (keys.get usage).Apart (next.get usage) := by
  let key (usage : KeyUsage) : SessionKey := .derive KeySet.defaultKey usage ⟨[0x00, 0x04], rfl⟩
  have derived : derive KeySet.default (.single KeyId.enc) 0x01 ⟨[0x00, 0x04], rfl⟩ =
      .ok ⟨key .enc, key .mac, key .dek, key .rMac⟩ := rfl
  have hmac : key .mac = ⟨⟨0xC8F6243ECF0DF436⟩, ⟨0xAF901514F65C7EF9⟩⟩ := by decide +kernel
  obtain ⟨-, hsingle, hcounter⟩ := (derive_separates KeySet.defaultKey .default _ _ _).2 _ derived
  exact ⟨_, derived, hmac, hsingle _ rfl, hcounter _ (by decide)⟩

end SessionKeys

end CardChannel
