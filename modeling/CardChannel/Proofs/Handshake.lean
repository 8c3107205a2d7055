import CardChannel.Handshake
import CardChannel.Proofs.Wrapping

/-! The two commands of the handshake, byte for byte.  Both halves of the handshake send one command
of fixed length, and what they come to is a function of the reply alone: `start_eq` and
`finish_eq`.  The second holds for the limits that a valid configuration allows. -/

namespace CardChannel

namespace InitializeUpdate

/-- INITIALIZE UPDATE as it is sent. -/
def bytes (keyVersion : UInt8) (hostChallenge : Block) : List UInt8 :=
  [0x80, 0x50, keyVersion, 0x00, 0x08] ++ hostChallenge.toBytes ++ [0x00]

theorem toBytes_command (keyVersion : UInt8) (hostChallenge : Block) :
    (command keyVersion hostChallenge).toBytes = .ok (bytes keyVersion hostChallenge) := rfl

theorem bytes_inj {keyVersion keyVersion' : UInt8} {a b : Block} :
    bytes keyVersion a = bytes keyVersion' b ↔ keyVersion = keyVersion' ∧ a = b := by
  simp [bytes]

/-- The twenty-eight bytes that the card answers with. -/
def Reply.payload (reply : Reply) : List UInt8 :=
  reply.diversificationData.toList ++ [reply.keyVersion, reply.version] ++
    reply.sequenceCounter.toList ++ reply.cardChallenge.toList ++ reply.cardCryptogram.toBytes

theorem Reply.length_payload (reply : Reply) : reply.payload.length = 28 := by
  simp [payload, Octets.length_toList]

theorem Reply.ofPayload_payload (reply : Reply) : ofPayload reply.payload = .ok reply := by
  have hlen := reply.length_payload
  have hlast : (reply.payload.drop 20).take 8 = reply.cardCryptogram.toBytes := by
    rw [payload, List.drop_left' (by simp [Octets.length_toList]), List.take_of_length_le (by simp)]
  rw [ofPayload, Octets.expect, Octets.ofBytes?, dif_pos hlen]
  have hblock : Block.ofOctets (.slice ⟨reply.payload, hlen⟩ 20 8 (by omega)) =
      reply.cardCryptogram := by
    rw [Block.ofOctets, Octets.slice]
    simp only [hlast, Block.ofList_toBytes]
  obtain ⟨⟨diversification, hd⟩, keyVersion, version, ⟨counter, hs⟩, ⟨challenge, hc⟩, cryptogram⟩ :=
    reply
  simp only [bind, Except.bind, pure, Except.pure, hblock, Except.ok.injEq, Reply.mk.injEq,
    and_true]
  refine ⟨Octets.ext ?_, ?_, ?_, Octets.ext ?_, Octets.ext ?_⟩
  all_goals simp [Octets.slice, Octets.get, payload, List.take_append, List.drop_append, hd, hs, hc]

/-- Nothing of the twenty-eight bytes is lost in the fields. -/
theorem Reply.payload_of_ofPayload {bytes : List UInt8} {reply : Reply}
    (h : ofPayload bytes = .ok reply) : reply.payload = bytes := by
  unfold ofPayload Octets.expect Octets.ofBytes? at h
  split at h
  · rename_i octets hoctets
    split at hoctets
    · rename_i hlen
      cases hoctets
      cases h
      have hfield (i n : Nat) : (bytes.drop i).take n ++ bytes.drop (i + n) = bytes.drop i := by
        rw [← List.drop_drop, List.take_append_drop]
      have hversions : bytes.drop 10 = bytes[10] :: bytes[11] :: bytes.drop 12 := by
        rw [List.drop_eq_getElem_cons (by omega), List.drop_eq_getElem_cons (by omega)]
      have hlast : (bytes.drop 20).take 8 = bytes.drop 20 :=
        List.take_of_length_le (by rw [List.length_drop]; omega)
      simp only [payload, Octets.slice, Octets.get, Block.toBytes_ofOctets, hlast,
        List.append_assoc]
      rw [hfield 14 6, hfield 12 2]
      show (bytes.drop 0).take 10 ++ bytes[10] :: bytes[11] :: bytes.drop 12 = bytes
      rw [← hversions, hfield 0 10]
      rfl
    · cases hoctets
  · cases h

/-- The replies that can be read are those that end in 9000 after the fields. -/
theorem Reply.ofBytes_eq_ok_iff {raw : List UInt8} {reply : Reply} :
    ofBytes raw = .ok reply ↔ raw = (Response.success reply.payload).toBytes := by
  constructor
  · intro h
    unfold ofBytes at h
    split at h
    · cases h
    · rename_i response hresponse
      unfold ofResponse at h
      split at h
      · rename_i hstatus
        rw [Response.ofBytes_eq_ok_iff.mp hresponse, payload_of_ofPayload h, Response.success,
          ← hstatus]
      · repeat' split at h
        all_goals cases h
  · rintro rfl
    rw [ofBytes, Response.ofBytes_toBytes]
    exact reply.ofPayload_payload

end InitializeUpdate

namespace ExternalAuthenticate

theorem checkResponse_eq_ok_iff {response : Response} :
    checkResponse response = .ok () ↔ response.status = .success := by
  unfold checkResponse
  split
  · simp_all
  · split <;> simp_all

/-- The card accepts with the status 9000 after any data. -/
theorem checkBytes_eq_ok_iff {raw : List UInt8} :
    checkBytes raw = .ok () ↔ ∃ data, raw = data ++ [0x90, 0x00] := by
  unfold checkBytes
  cases hr : Response.ofBytes raw with
  | error cause =>
    simp only [reduceCtorEq, false_iff, not_exists]
    rintro data rfl
    have hok := Response.ofBytes_toBytes (.success data)
    rw [show Response.toBytes (.success data) = data ++ [0x90, 0x00] from rfl, hr] at hok
    cases hok
  | ok response =>
    rw [Response.ofBytes_eq_ok_iff] at hr
    subst hr
    simp only [checkResponse_eq_ok_iff]
    constructor
    · intro h
      exact ⟨response.payload, by rw [Response.toBytes, h]; rfl⟩
    · rintro ⟨data, h⟩
      have hs := (List.append_inj' h rfl).2
      exact StatusWord.toBytes_inj.mp hs

end ExternalAuthenticate

namespace Handshake

variable (h : Handshake) (options : Options) (level : SecurityLevel)

/-- What the host makes of the reply to INITIALIZE UPDATE. -/
def judge (provider : KeyProvider) (base : BaseKeys) (requested : UInt8) (hostChallenge : Block) :
    Reply → Except Error Handshake
  | .error cause => .error (.transport cause)
  | .ok raw => acceptBytes provider base requested hostChallenge raw

open Dialogue in
theorem start_eq (provider : KeyProvider) (base : BaseKeys) (requested : UInt8)
    (hostChallenge : Block) :
    start provider base requested hostChallenge =
      send (InitializeUpdate.bytes requested hostChallenge) fun reply =>
        done (judge provider base requested hostChallenge reply) := by
  rw [start]
  simp only [InitializeUpdate.toBytes_command]
  congr 1
  funext reply
  cases reply <;> rfl

/-- The reply is of the right version and names keys that the host asked for and is given.  Whether
the card holds them as well is left to its cryptogram. -/
structure Suits (provider : KeyProvider) (base : BaseKeys) (requested : UInt8)
    (reply : InitializeUpdate.Reply) (keys : SessionKeys) : Prop where
  version : reply.version = CardProfile.supportedVersion
  keyVersion : requested = anyKeyVersion ∨ reply.keyVersion = requested
  derived : SessionKeys.derive provider base reply.keyVersion reply.sequenceCounter = .ok keys

section Judge

variable {provider : KeyProvider} {base : BaseKeys} {requested : UInt8} {hostChallenge : Block}
  {reply : InitializeUpdate.Reply} {keys : SessionKeys}

/-- The keys are not derived from the card challenge, nor from the cryptogram. -/
theorem Suits.replaced (h : Suits provider base requested reply keys) (challenge : CardChallenge)
    (cryptogram : Block) :
    Suits provider base requested
      { reply with cardChallenge := challenge, cardCryptogram := cryptogram } keys :=
  ⟨h.version, h.keyVersion, h.derived⟩

theorem accept_of_suits (h : Suits provider base requested reply keys) :
    accept provider base requested hostChallenge reply =
      if Cryptogram.card keys.enc reply.sequenceCounter reply.cardChallenge hostChallenge =
          reply.cardCryptogram then .ok ⟨hostChallenge, reply, keys⟩
      else .error invalidCardCryptogram := by
  have hversion : ¬ reply.version ≠ CardProfile.supportedVersion := not_not_intro h.version
  have hkey : ¬ (requested ≠ anyKeyVersion ∧ reply.keyVersion ≠ requested) := by
    rintro ⟨hany, hother⟩
    exact h.keyVersion.elim hany hother
  rw [accept, if_neg hversion, if_neg hkey, h.derived]
  rfl

theorem suits_of_accept {h : Handshake}
    (ha : accept provider base requested hostChallenge reply = .ok h) :
    Suits provider base requested reply h.keys ∧
      Cryptogram.card h.keys.enc reply.sequenceCounter reply.cardChallenge hostChallenge =
        reply.cardCryptogram ∧
      h.hostChallenge = hostChallenge ∧ h.reply = reply := by
  unfold accept at ha
  split at ha
  · cases ha
  rename_i hversion
  split at ha
  · cases ha
  rename_i hkey
  obtain ⟨keys, hderived, ha⟩ := bind_eq_ok_iff.mp ha
  dsimp only at ha
  split at ha
  · rename_i hcard
    cases ha
    refine ⟨⟨Decidable.not_not.mp hversion, ?_, hderived⟩, hcard, rfl, rfl⟩
    exact Decidable.or_iff_not_imp_left.mpr fun hany =>
      Decidable.not_not.mp fun hother => hkey ⟨hany, hother⟩
  · cases ha

theorem judge_of_suits (h : Suits provider base requested reply keys) :
    judge provider base requested hostChallenge (.ok (Response.success reply.payload).toBytes) =
      if Cryptogram.card keys.enc reply.sequenceCounter reply.cardChallenge hostChallenge =
          reply.cardCryptogram then .ok ⟨hostChallenge, reply, keys⟩
      else .error invalidCardCryptogram := by
  rw [judge, acceptBytes, InitializeUpdate.Reply.ofBytes_eq_ok_iff.mpr rfl, ← accept_of_suits h]
  rfl

/-- An accepted reply has the fields of the handshake, and its cryptogram proves that the card holds
the keys. -/
theorem suits_of_judge {raw : Reply} {h : Handshake}
    (hj : judge provider base requested hostChallenge raw = .ok h) :
    raw = .ok (Response.success h.reply.payload).toBytes ∧
      Suits provider base requested h.reply h.keys ∧
      Cryptogram.card h.keys.enc h.reply.sequenceCounter h.reply.cardChallenge hostChallenge =
        h.reply.cardCryptogram ∧ h.hostChallenge = hostChallenge := by
  match raw with
  | .error cause => cases hj
  | .ok raw =>
    rw [judge, acceptBytes] at hj
    cases hr : InitializeUpdate.Reply.ofBytes raw with
    | error error => rw [hr] at hj; cases hj
    | ok reply =>
      rw [hr] at hj
      obtain ⟨hsuits, hcard, hchallenge, rfl⟩ := suits_of_accept hj
      rw [InitializeUpdate.Reply.ofBytes_eq_ok_iff.mp hr]
      exact ⟨rfl, hsuits, hcard, hchallenge⟩

/-- A reply from a card that holds the keys is accepted. -/
theorem judge_payload (hversion : reply.version = CardProfile.supportedVersion)
    (hkey : requested = anyKeyVersion ∨ reply.keyVersion = requested)
    (hkeys : SessionKeys.derive provider base reply.keyVersion reply.sequenceCounter = .ok keys)
    (hcard : Cryptogram.card keys.enc reply.sequenceCounter reply.cardChallenge hostChallenge =
      reply.cardCryptogram) :
    judge provider base requested hostChallenge (.ok (Response.success reply.payload).toBytes) =
      .ok ⟨hostChallenge, reply, keys⟩ := by
  rw [judge_of_suits ⟨hversion, hkey, hkeys⟩, if_pos hcard]

/-- An accepted reply proves that the card holds the keys. -/
theorem cardCryptogram_of_judge {raw : Reply} {h : Handshake}
    (hj : judge provider base requested hostChallenge raw = .ok h) :
    h.hostChallenge = hostChallenge ∧
      Cryptogram.card h.keys.enc h.reply.sequenceCounter h.reply.cardChallenge hostChallenge =
        h.reply.cardCryptogram :=
  have ⟨_, _, hcard, hchallenge⟩ := suits_of_judge hj
  ⟨hchallenge, hcard⟩

end Judge

/-- The MAC of EXTERNAL AUTHENTICATE, the first of a fresh chain. -/
def finalMac : Block :=
  h.keys.mac.mac .zero
    (Channel.macInput options (ExternalAuthenticate.command level h.hostCryptogram))

/-- EXTERNAL AUTHENTICATE as it is sent. -/
def finalBytes : List UInt8 :=
  [0x84, 0x82, level.bits, 0x00, 0x10] ++ h.hostCryptogram.toBytes ++
    (h.finalMac options level).toBytes

variable {h options level} in
/-- Apart from the level, the command consists of its cryptogram and its MAC. -/
theorem finalBytes_inj {h' : Handshake} :
    h.finalBytes options level = h'.finalBytes options level ↔
      h.hostCryptogram = h'.hostCryptogram ∧
        h.finalMac options level = h'.finalMac options level := by
  rw [finalBytes, finalBytes]
  constructor
  · intro heq
    obtain ⟨hfront, hmac⟩ := List.append_inj' heq (by simp)
    exact ⟨Block.toBytes_inj.mp (List.append_cancel_left hfront), Block.toBytes_inj.mp hmac⟩
  · rintro ⟨hcryptogram, hmac⟩
    rw [hcryptogram, hmac]

/-- What the host makes of the reply to EXTERNAL AUTHENTICATE. -/
def confirm : Reply → Except Error Unit
  | .error cause => .error (.transport cause)
  | .ok raw => ExternalAuthenticate.checkBytes raw

theorem confirm_eq_ok_iff {reply : Reply} :
    confirm reply = .ok () ↔ ∃ data, reply = .ok (data ++ [0x90, 0x00]) := by
  match reply with
  | .error cause => simp [confirm]
  | .ok raw => simp [confirm, ExternalAuthenticate.checkBytes_eq_ok_iff]

/-- EXTERNAL AUTHENTICATE with its MAC. -/
def finalWrapped : Command :=
  ⟨0x84, 0x82, level.bits, 0x00,
    some (h.hostCryptogram.toBytes ++ (h.finalMac options level).toBytes), none⟩

theorem finalCommand_eq {max : Nat} (hlow : 16 ≤ max) (hhigh : max ≤ maxShortData) :
    h.finalCommand options level max =
      .ok (h.finalWrapped options level, h.finalMac options level) := by
  have hroom : Channel.dataRoom .cMacOnly max = .ok (max - 8) :=
    Channel.dataRoom_eq_ok_iff.mpr ⟨hhigh, show max - 8 + 8 = max by omega⟩
  have hcreate : Channel.create h.keys options .cMacOnly none max =
      .ok ⟨h.keys, options, .cMacOnly, max - 8, none, .zero, none⟩ :=
    Channel.create_eq_ok_iff.mpr ⟨rfl, _, hroom, rfl⟩
  have hfit : (ExternalAuthenticate.command level h.hostCryptogram).payload.length ≤
      (⟨h.keys, options, .cMacOnly, max - 8, none, .zero, none⟩ : Channel).maxData :=
    show 8 ≤ max - 8 by omega
  rw [finalCommand, hcreate]
  simp only [bind, Except.bind, Channel.wrap_of_le hfit]
  simp [Channel.protect, Channel.advance, Channel.remember, Channel.protectPayload,
    SecurityLevel.cMacOnly, Channel.commandMac, Channel.nextInitial, finalWrapped, finalMac,
    ExternalAuthenticate.command, Command.payload,
    show Channel.markSecure 0x80 = 0x84 from rfl]

open Dialogue in
theorem finish_eq {max : Nat} (hlow : 16 ≤ max) (hhigh : max ≤ maxShortData) :
    h.finish options level max =
      send (h.finalBytes options level) fun reply =>
        done ((confirm reply).map fun _ => h.finalMac options level) := by
  have hb : (h.finalWrapped options level).toBytes = .ok (h.finalBytes options level) := rfl
  rw [finish, finalCommand_eq h options level hlow hhigh]
  simp only [hb]
  congr 1
  funext reply
  cases reply <;> rfl

end Handshake

end CardChannel
