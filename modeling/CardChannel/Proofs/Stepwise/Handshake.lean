import CardChannel.Proofs.Stepwise.Channel
import CardChannel.Proofs.Handshake

/-! The handshake with every check in its place: both cryptograms and the signing of EXTERNAL
AUTHENTICATE can each fail here.  None does for the limits that a valid configuration allows, and
the two halves are `Handshake.start` and `Handshake.finish`, whatever the provider of the keys
answers. -/

namespace CardChannel.Stepwise

variable {provider : KeyProvider} {base : BaseKeys} {requested : UInt8}

/-- Check an answer to INITIALIZE UPDATE and derive the session keys that it calls for. -/
def accept (provider : KeyProvider) (base : BaseKeys) (requested : UInt8) (hostChallenge : Block)
    (reply : InitializeUpdate.Reply) : Except Error Handshake :=
  if reply.version ≠ CardProfile.supportedVersion then
    .error (.unsupportedVersion reply.version)
  else if requested ≠ anyKeyVersion ∧ reply.keyVersion ≠ requested then
    .error (.keyVersionMismatch requested reply.keyVersion)
  else do
    let keys ← SessionKeys.derive provider base reply.keyVersion reply.sequenceCounter
    let expected ← (cryptogram keys.enc (hostChallenge.toBytes ++ reply.sequenceCounter.toList ++
      reply.cardChallenge.toList)).mapError .ofFault
    if expected = reply.cardCryptogram then .ok ⟨hostChallenge, reply, keys⟩
    else .error Handshake.invalidCardCryptogram

open Dialogue in
def start (provider : KeyProvider) (base : BaseKeys) (requested : UInt8) (hostChallenge : Block) :
    Dialogue (Except Error Handshake) :=
  match (InitializeUpdate.command requested hostChallenge).toBytes with
  | .error error => done (.error (.apdu error))
  | .ok bytes =>
    send bytes fun
      | .error cause => done (.error (.transport cause))
      | .ok raw =>
        match InitializeUpdate.Reply.ofBytes raw with
        | .error error => done (.error error)
        | .ok reply => done (accept provider base requested hostChallenge reply)

def hostCryptogram (h : Handshake) : Except Cipher.Fault Block :=
  cryptogram h.keys.enc (h.reply.sequenceCounter.toList ++ h.reply.cardChallenge.toList ++
    h.hostChallenge.toBytes)

/-- EXTERNAL AUTHENTICATE through a channel of its own, and that channel afterwards. -/
def signFinal (h : Handshake) (options : Options) (level : SecurityLevel) (max : Nat) :
    Except Error (Command × Channel) := do
  let cryptogram ← (hostCryptogram h).mapError .ofFault
  let bootstrap ← Channel.create h.keys options .cMacOnly none max
  match wrap bootstrap (ExternalAuthenticate.command level cryptogram) with
  | (.error error, _) => .error error
  | (.ok wrapped, bootstrap) => .ok (wrapped, bootstrap)

open Dialogue in
/-- Whether the command was signed is looked up after the card has answered. -/
def finish (h : Handshake) (options : Options) (level : SecurityLevel) (max : Nat) :
    Dialogue (Except Error Block) :=
  match signFinal h options level max with
  | .error error => done (.error error)
  | .ok (wrapped, bootstrap) =>
    match wrapped.toBytes with
    | .error error => done (.error (.apdu error))
    | .ok bytes =>
      send bytes fun
        | .error cause => done (.error (.transport cause))
        | .ok raw =>
          match ExternalAuthenticate.checkBytes raw, bootstrap.icv with
          | .error error, _ => done (.error error)
          | .ok (), none => done (.error Handshake.notSigned)
          | .ok (), some mac => done (.ok mac)

theorem accept_eq (hostChallenge : Block) (reply : InitializeUpdate.Reply) :
    accept provider base requested hostChallenge reply =
      Handshake.accept provider base requested hostChallenge reply := by
  simp only [accept, Handshake.accept, cryptogram_eq, Cryptogram.card]
  rfl

theorem start_eq (provider : KeyProvider) (base : BaseKeys) (requested : UInt8)
    (hostChallenge : Block) :
    start provider base requested hostChallenge =
      Handshake.start provider base requested hostChallenge := by
  rw [Handshake.start_eq, start]
  simp only [InitializeUpdate.toBytes_command, accept_eq]
  congr 1
  funext reply
  match reply with
  | .error cause => rfl
  | .ok raw =>
    simp only [Handshake.judge, Handshake.acceptBytes]
    cases InitializeUpdate.Reply.ofBytes raw <;> rfl

theorem hostCryptogram_eq (h : Handshake) : hostCryptogram h = .ok h.hostCryptogram :=
  cryptogram_eq _ _

section Finish

variable (h : Handshake) (options : Options) (level : SecurityLevel) {max : Nat}

/-- Signing succeeds, and the channel that signed has kept the MAC. -/
theorem exists_signFinal (hlow : 16 ≤ max) (hhigh : max ≤ maxShortData) :
    ∃ bootstrap, signFinal h options level max = .ok (h.finalWrapped options level, bootstrap) ∧
      bootstrap.icv = some (h.finalMac options level) := by
  have hfinal := h.finalCommand_eq options level hlow hhigh
  unfold Handshake.finalCommand at hfinal
  have hcryptogram : (hostCryptogram h).mapError Error.ofFault = .ok h.hostCryptogram := by
    rw [hostCryptogram_eq]
    rfl
  rw [signFinal, hcryptogram]
  cases hcreate : Channel.create h.keys options .cMacOnly none max with
  | error error =>
    rw [hcreate] at hfinal
    cases hfinal
  | ok bootstrap =>
    simp only [hcreate, bind, Except.bind] at hfinal ⊢
    rw [wrap_eq (Channel.fits_of_create hcreate)]
    rcases hwrap : bootstrap.wrap (ExternalAuthenticate.command level h.hostCryptogram) with
      ⟨error | wrapped, signed⟩
    all_goals rw [hwrap] at hfinal
    · cases hfinal
    · cases hicv : signed.icv with
      | none => simp [hicv] at hfinal
      | some mac =>
        simp only [hicv, Except.ok.injEq, Prod.mk.injEq] at hfinal
        obtain ⟨rfl, rfl⟩ := hfinal
        exact ⟨signed, rfl, hicv⟩

theorem finish_eq (hlow : 16 ≤ max) (hhigh : max ≤ maxShortData) :
    finish h options level max = h.finish options level max := by
  obtain ⟨bootstrap, hsign, hicv⟩ := exists_signFinal h options level hlow hhigh
  have hbytes : (h.finalWrapped options level).toBytes = .ok (h.finalBytes options level) := rfl
  rw [Handshake.finish_eq h options level hlow hhigh, finish, hsign]
  simp only [hbytes, hicv]
  congr 1
  funext reply
  match reply with
  | .error cause => rfl
  | .ok raw =>
    simp only [Handshake.confirm]
    cases ExternalAuthenticate.checkBytes raw <;> rfl

end Finish

end CardChannel.Stepwise
