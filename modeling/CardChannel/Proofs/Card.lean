import CardChannel.Proofs.Mirror
import CardChannel.Proofs.Session.Transition

/-! A card that keeps to the protocol.  It holds the same keys as the host and is in one of three
phases; it recomputes what it expects and refuses everything else.  Behind it stands an application
that answers plain commands.  Against such a card a session always opens a channel, and the channel
carries each command to the application and each response back unchanged: `play_serves`. -/

namespace CardChannel

/-- What a card says of itself in a handshake. -/
structure Greeting where
  diversificationData : Octets 10
  keyVersion : UInt8
  sequenceCounter : SequenceCounter
  cardChallenge : CardChallenge

/-- A card and its application.  The states of the application are those in `σ`, and the random
challenges of the host are drawn from them as well. -/
structure Card (σ : Type) where
  keys : KeyProvider
  base : BaseKeys
  options : Options
  greeting : Greeting
  application : Command → σ → Response × σ
  challenge : σ → Block × σ

namespace Card

inductive Phase where
  | idle
  | challenged (h : Handshake)
  | secured (ch : Channel)

structure State (σ : Type) where
  phase : Phase
  world : σ

variable {σ : Type} (card : Card σ)

/-- The handshake that the card enters with a host, and its side of it. -/
def meet (hostChallenge : Block) (keys : SessionKeys) : Handshake where
  hostChallenge
  keys
  reply := {
    diversificationData := card.greeting.diversificationData
    keyVersion := card.greeting.keyVersion
    version := CardProfile.supportedVersion
    sequenceCounter := card.greeting.sequenceCounter
    cardChallenge := card.greeting.cardChallenge
    cardCryptogram := Cryptogram.card keys.enc card.greeting.sequenceCounter
      card.greeting.cardChallenge hostChallenge }

/-- The session keys that the card derives. -/
def derive : Except Error SessionKeys :=
  SessionKeys.derive card.keys card.base card.greeting.keyVersion card.greeting.sequenceCounter

/-- The handshake that the card enters when it receives INITIALIZE UPDATE. -/
def greet (raw : List UInt8) : Option Handshake :=
  match Command.ofBytes raw with
  | .error _ => none
  | .ok c =>
    if c.cla = 0x80 ∧ c.ins = 0x50 ∧ c.payload.length = 8 ∧
        (c.p1 = anyKeyVersion ∨ c.p1 = card.greeting.keyVersion) then
      card.derive.toOption.map (card.meet (.ofList c.payload))
    else none

/-- The channel that opens when the card receives the EXTERNAL AUTHENTICATE that it computes. -/
def authenticate (h : Handshake) (raw : List UInt8) : Option Channel :=
  match Command.ofBytes raw with
  | .error _ => none
  | .ok c =>
    match SecurityLevel.ofBits c.p1 with
    | .error _ => none
    | .ok level =>
      match h.finalCommand card.options level maxShortData with
      | .error _ => none
      | .ok (expected, mac) =>
        if expected.toBytes.toOption = some raw then
          (Channel.create h.keys card.options level (some mac) maxShortData).toOption
        else none

/-- What the card answers to anything that it does not expect. -/
def refusal : Response := .failure .securityNotSatisfied

/-- A handshake can be started over at any time; anything else ends what was going on. -/
def startOver (raw : List UInt8) (world : σ) : Reply × State σ :=
  match card.greet raw with
  | none => (.ok refusal.toBytes, ⟨.idle, world⟩)
  | some h => (.ok (Response.success h.reply.payload).toBytes, ⟨.challenged h, world⟩)

def exchange (raw : List UInt8) (state : State σ) : Reply × State σ :=
  match state.phase with
  | .idle => card.startOver raw state.world
  | .challenged h =>
    match card.authenticate h raw with
    | none => card.startOver raw state.world
    | some ch => (.ok (Response.success []).toBytes, ⟨.secured ch, state.world⟩)
  | .secured ch =>
    match ch.accept raw with
    | none => card.startOver raw state.world
    | some (c, next) =>
      let (response, world) := card.application c state.world
      let (answer, last) := next.answer response
      (.ok answer.toBytes, ⟨.secured last, world⟩)

def reader : Reader (State σ) where
  exchange := card.exchange
  challenge state :=
    let (challenge, world) := card.challenge state.world
    (challenge, { state with world })

/-- The card holds the keys of the session and speaks the same variant of the protocol, and the
version of its keys is one that the session asks for and has. -/
structure Serves (s : Session) : Prop where
  keys : card.keys = s.keys
  base : card.base = s.config.baseKeys s.options
  options : card.options = s.options
  version : s.config.keyVersion = anyKeyVersion ∨ card.greeting.keyVersion = s.config.keyVersion
  derives : ∃ keys, card.derive = .ok keys

/-- The card takes INITIALIZE UPDATE for what it is.  Over a channel without MACs it would be a
command like any other. -/
def Ready (state : State σ) : Prop :=
  ∀ {ch}, state.phase = .secured ch → ch.level.cMac = true

variable {card} {s : Session}

/-! ### The handshake -/

theorem Serves.judge_meet (hc : card.Serves s) {keys : SessionKeys} (hk : card.derive = .ok keys)
    (hostChallenge : Block) :
    s.judge s.config.keyVersion hostChallenge
      (.ok (Response.success (card.meet hostChallenge keys).reply.payload).toBytes) =
      .ok (card.meet hostChallenge keys) :=
  Handshake.judge_payload rfl hc.version (by rw [← hk, derive, hc.keys, hc.base]; rfl) rfl

theorem Serves.greet_bytes (hc : card.Serves s) {keys : SessionKeys} (hk : card.derive = .ok keys)
    (hostChallenge : Block) :
    card.greet (InitializeUpdate.bytes s.config.keyVersion hostChallenge) =
      some (card.meet hostChallenge keys) := by
  have hread : Command.ofBytes (InitializeUpdate.bytes s.config.keyVersion hostChallenge) =
      .ok (InitializeUpdate.command s.config.keyVersion hostChallenge) :=
    Command.ofBytes_of_toBytes (InitializeUpdate.toBytes_command _ _) (by
      intro h
      cases h)
  have hversion : s.config.keyVersion = anyKeyVersion ∨
      s.config.keyVersion = card.greeting.keyVersion :=
    hc.version.imp_right Eq.symm
  rw [greet, hread]
  simp only
  rw [if_pos ⟨rfl, rfl, rfl, hversion⟩, hk]
  exact congrArg (fun challenge => some (card.meet challenge keys))
    (Block.ofList_toBytes hostChallenge)

theorem bytes_ne_markSecure {keyVersion : UInt8} {hostChallenge : Block} (cla : UInt8)
    {rest : List UInt8} :
    InitializeUpdate.bytes keyVersion hostChallenge ≠ Channel.markSecure cla :: rest := by
  intro h
  have hcla : 0x80 = Channel.markSecure cla := (List.cons.inj h).1
  have hmark := Channel.and_markSecure cla
  rw [← hcla] at hmark
  cases hmark

theorem finalCommand_maxShortData (h : Handshake) (options : Options) (level : SecurityLevel) :
    h.finalCommand options level maxShortData =
      .ok (h.finalWrapped options level, h.finalMac options level) :=
  h.finalCommand_eq options level (by decide) (Nat.le_refl _)

/-- The card tells INITIALIZE UPDATE from the EXTERNAL AUTHENTICATE that it waits for. -/
theorem authenticate_bytes (h : Handshake) (keyVersion : UInt8) (hostChallenge : Block) :
    card.authenticate h (InitializeUpdate.bytes keyVersion hostChallenge) = none := by
  unfold authenticate
  split
  · rfl
  split
  · rfl
  rename_i level _
  rw [finalCommand_maxShortData]
  refine if_neg fun hwrite => ?_
  have hbytes := Channel.toBytes_of_toOption hwrite
  exact bytes_ne_markSecure 0x84 (Except.ok.inj hbytes).symm

theorem Ready.exchange_bytes {state : State σ} (hr : Ready state) (keyVersion : UInt8)
    (hostChallenge : Block) :
    card.exchange (InitializeUpdate.bytes keyVersion hostChallenge) state =
      card.startOver (InitializeUpdate.bytes keyVersion hostChallenge) state.world := by
  obtain ⟨phase, world⟩ := state
  match phase with
  | .idle => rfl
  | .challenged h => simp only [exchange, authenticate_bytes]
  | .secured ch =>
    cases ha : ch.accept (InitializeUpdate.bytes keyVersion hostChallenge) with
    | none => simp only [exchange, ha]
    | some accepted =>
      obtain ⟨cla, rest, hbytes⟩ := Channel.marked_of_accept (hr rfl) ha
      exact absurd hbytes (bytes_ne_markSecure cla)

theorem authenticate_finalBytes (h : Handshake) (level : SecurityLevel) :
    card.authenticate h (h.finalBytes card.options level) =
      (Channel.create h.keys card.options level (some (h.finalMac card.options level))
        maxShortData).toOption := by
  have hwrite : (h.finalWrapped card.options level).toBytes =
      .ok (h.finalBytes card.options level) := rfl
  have hread := Command.ofBytes_of_toBytes hwrite (by
    intro hnil
    cases hnil)
  rw [authenticate, hread]
  simp only [Handshake.finalWrapped, SecurityLevel.ofBits_bits, finalCommand_maxShortData]
  exact if_pos rfl

open Dialogue in
/-- A channel can always be opened, and card and host then hold the same values. -/
theorem Serves.opens (hc : card.Serves s) (hs : s.Sound) {level : SecurityLevel}
    (hl : level.validate = .ok ()) {state : State σ} (hr : Ready state) :
    ∃ events ch mirror,
      s.Transition (.openChannel level) events (.ok .opened) (s.enter (.opened ch)) ∧
      Answers card.reader state events ⟨.secured mirror, (card.challenge state.world).2⟩ ∧
      ch.Mirrors mirror ∧ ch.level = level ∧ ch.options = s.options ∧
      ch.maxData + level.overhead = s.config.maxData := by
  obtain ⟨keys, hk⟩ := hc.derives
  rcases hdraw : card.challenge state.world with ⟨hostChallenge, world⟩
  let h := card.meet hostChallenge keys
  obtain ⟨ch, hcreate⟩ := hs.exists_create h.keys hl (h.finalMac s.options level)
  obtain ⟨-, room, hroom, hch⟩ := Channel.create_eq_ok_iff.mp hcreate
  have hover := (Channel.dataRoom_eq_ok_iff.mp hroom).2
  have hmax := hs.maxData
  -- The card has more room than the host, for it does not limit the data that it takes.
  let mirror : Channel := { ch with maxData := maxShortData - level.overhead }
  have hmirror : Channel.create h.keys card.options level (some (h.finalMac card.options level))
      maxShortData = .ok mirror := by
    refine Channel.create_eq_ok_iff.mpr ⟨hl, maxShortData - level.overhead,
      Channel.dataRoom_eq_ok_iff.mpr ⟨Nat.le_refl _, by omega⟩, ?_⟩
    simp only [mirror, hch, hc.options]
  have hgreet : card.exchange (InitializeUpdate.bytes s.config.keyVersion hostChallenge)
      ⟨state.phase, world⟩ =
      (.ok (Response.success h.reply.payload).toBytes, ⟨.challenged h, world⟩) := by
    have hready : Ready (⟨state.phase, world⟩ : State σ) := hr
    rw [hready.exchange_bytes, startOver,
      hc.greet_bytes hk hostChallenge]
  have hconfirm : card.exchange (h.finalBytes s.options level) ⟨.challenged h, world⟩ =
      (.ok (Response.success []).toBytes, ⟨.secured mirror, world⟩) := by
    have hauth := card.authenticate_finalBytes h level
    rw [hmirror, hc.options] at hauth
    simp only [exchange, hauth, Except.toOption]
  refine ⟨_, ch, mirror,
    .opened (hc.judge_meet hk hostChallenge)
      (Handshake.confirm_eq_ok_iff.mpr ⟨[], rfl⟩) hcreate,
    .drawn (by simp only [reader, hdraw]) (.sent hgreet (.sent hconfirm (.nil _))), ?_⟩
  subst hch
  refine ⟨⟨rfl, rfl, rfl, rfl, rfl, rfl, ?_⟩, rfl, rfl, hover⟩
  show room ≤ maxShortData - level.overhead
  omega

/-! ### One card and one session -/

/-- A card that answers every command with success alone. -/
def obliging (s : Session) : Card Unit where
  keys := s.keys
  base := s.config.baseKeys s.options
  options := s.options
  greeting := ⟨⟨List.replicate 10 0, rfl⟩, 1, ⟨[0, 1], rfl⟩, ⟨List.replicate 6 0, rfl⟩⟩
  application _ _ := (.success [], ())
  challenge _ := (.zero, ())

/-- A session whose command MACs are taken before the class byte is marked, with the least room
for data that a configuration may leave. -/
def unmodified : Session := ⟨KeySet.default, ⟨0x17⟩, { Config.default with maxData := 17 }, .new⟩

theorem create_unmodified :
    Session.create KeySet.default ⟨none, some ⟨0x17⟩⟩ unmodified.config = .ok unmodified := rfl

theorem reachable_of_run {steps : List Step} (h : Run unmodified steps s) : s.Reachable :=
  ⟨KeySet.default, ⟨none, some ⟨0x17⟩⟩, unmodified.config, unmodified, steps, create_unmodified, h⟩

theorem reachable_unmodified : unmodified.Reachable := reachable_of_run (.done _)

theorem serves_unmodified : (obliging unmodified).Serves unmodified :=
  ⟨rfl, rfl, rfl, .inl rfl, ⟨_, rfl⟩⟩

theorem ready_idle (world : σ) : Ready ⟨.idle, world⟩ := by
  intro ch h
  cases h

/-- The card lets the session open a channel at any valid level. -/
theorem exists_run_opened {level : SecurityLevel} (hl : level.validate = .ok ()) :
    ∃ steps ch, Run unmodified steps (unmodified.enter (.opened ch)) ∧ ch.level = level := by
  have hs := reachable_unmodified.sound
  obtain ⟨events, ch, mirror, hopen, -, -, hlevel, -⟩ :=
    serves_unmodified.opens hs hl (ready_idle ())
  exact ⟨_, ch, .step (hs.trace_of_transition hopen) (.done _), hlevel⟩

end Card

end CardChannel
