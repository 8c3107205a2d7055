import CardChannel.Proofs.Card
import CardChannel.Proofs.Modes
import CardChannel.Proofs.Session.Wire
import CardChannel.Proofs.Stepwise.Session

/-! Encryption of sensitive data, in a session whose stage and channel are fields of their own.  It is
there while a channel is open, and takes whole blocks only, each of which it enciphers on its own
under a key that stays the same as long as the channel is kept; so nothing is lost, and no two data
have the same result (`Sound.kept`, `CodeBook.source_unique`).  It concerns neither the session nor the
card: without it a sequence of operations goes as before (`play_without`).  All of this together is
`encryptSensitive_blockwise`. -/

namespace CardChannel

def Operation.encrypts : Operation → Bool
  | encryptSensitive _ => true
  | _ => false

/-- The blocks of the data, each enciphered in its place. -/
structure Enciphered (key : SessionKey) (data bytes : List UInt8) : Prop where
  blockwise : CodeBook key.encrypt data bytes
  length : bytes.length = data.length
  lossless : CodeBook key.decrypt bytes data

theorem CodeBook.enciphered {key : SessionKey} {data bytes : List UInt8}
    (h : CodeBook key.encrypt data bytes) : Enciphered key data bytes :=
  ⟨h, h.length_eq, h.inverse key.decrypt_encrypt⟩

/-- Steps that hand nothing over leave no trace on the wire. -/
theorem wire_filter {p : Step → Bool} {steps : List Step}
    (h : ∀ step ∈ steps, p step = false → step.exchanges = []) :
    wire (steps.filter p) = wire steps := by
  induction steps with
  | nil => rfl
  | cons step rest ih =>
    have hrest := ih fun later hmem => h later (List.mem_cons_of_mem _ hmem)
    cases hp : p step with
    | true => rw [List.filter_cons_of_pos hp, wire_cons, wire_cons, hrest]
    | false =>
      have hsilent := h step List.mem_cons_self hp
      rw [List.filter_cons_of_neg (by simp [hp]), wire_cons, hsilent, hrest, List.nil_append]

namespace Session

open Dialogue

variable {s next last : Session} {ch : Channel} {data bytes : List UInt8} {operation : Operation}
  {events : List Event} {result : Except Error Answer} {steps : List Step}

/-! ### One session -/

/-- The outcome for `data`: there is no channel, the data are no whole blocks, or it succeeds. -/
inductive Encrypts (s : Session) (data : List UInt8) : Except Error (List UInt8) → Prop where
  | closed (closed : s.channel? = none) : Encrypts s data (.error .noSecureChannel)
  | misaligned {ch : Channel} (stage : s.stage = .opened ch) (length : data.length % 8 ≠ 0) :
      Encrypts s data (.error (.crypto Cipher.Fault.misaligned.text))
  | encrypted {ch : Channel} {bytes : List UInt8} (stage : s.stage = .opened ch)
      (coded : CodeBook ch.keys.dek.encrypt data bytes) : Encrypts s data (.ok bytes)

theorem encrypts_encryptSensitive (s : Session) (data : List UInt8) :
    s.Encrypts data (s.encryptSensitive data) := by
  rw [encryptSensitive]
  cases hch : s.channel? with
  | none => exact .closed hch
  | some ch =>
    have hst := channel?_eq_some_iff.mp hch
    simp only
    cases hcoded : ch.keys.dek.encryptBlocks data with
    | ok bytes => exact .encrypted hst (SessionKey.encryptBlocks_eq_ok_iff.mp hcoded)
    | error fault =>
      rw [SessionKey.encryptBlocks] at hcoded
      split at hcoded
      · cases hcoded
      · rename_i hmod
        cases hcoded
        exact .misaligned hst hmod

theorem encryptSensitive_eq_ok_iff :
    s.encryptSensitive data = .ok bytes ↔
      ∃ ch, s.stage = .opened ch ∧ CodeBook ch.keys.dek.encrypt data bytes := by
  constructor
  · intro h
    have hcases := s.encrypts_encryptSensitive data
    rw [h] at hcases
    cases hcases with
    | encrypted stage coded => exact ⟨_, stage, coded⟩
  · rintro ⟨ch, hst, hcoded⟩
    exact encryptSensitive_of_some (channel?_eq_some_iff.mpr hst)
      (SessionKey.encryptBlocks_eq_ok_iff.mpr hcoded)

theorem encryptSensitive_eq_noSecureChannel_iff :
    s.encryptSensitive data = .error .noSecureChannel ↔ ¬ ∃ ch, s.stage = .opened ch := by
  constructor
  · rintro h ⟨ch, hst⟩
    have hcases := s.encrypts_encryptSensitive data
    rw [h] at hcases
    cases hcases with
    | closed closed => exact channel?_ne_none hst closed
  · intro hclosed
    cases hch : s.channel? with
    | none => rw [encryptSensitive, hch]
    | some ch => exact absurd ⟨ch, channel?_eq_some_iff.mp hch⟩ hclosed

theorem exists_crypto_iff :
    (∃ detail, s.encryptSensitive data = .error (.crypto detail)) ↔
      (∃ ch, s.stage = .opened ch) ∧ data.length % 8 ≠ 0 := by
  constructor
  · rintro ⟨detail, h⟩
    have hcases := s.encrypts_encryptSensitive data
    rw [h] at hcases
    cases hcases with
    | misaligned stage length => exact ⟨⟨_, stage⟩, length⟩
  · rintro ⟨⟨ch, hst⟩, hmod⟩
    have hcases := s.encrypts_encryptSensitive data
    generalize s.encryptSensitive data = result at hcases ⊢
    cases hcases with
    | closed closed => exact absurd closed (channel?_ne_none hst)
    | misaligned => exact ⟨_, rfl⟩
    | encrypted stage coded => exact absurd coded.length_mod hmod

theorem exists_enciphered (hst : s.stage = .opened ch) (hmod : data.length % 8 = 0) :
    ∃ bytes, s.encryptSensitive data = .ok bytes ∧ Enciphered ch.keys.dek data bytes := by
  have hcoded : CodeBook ch.keys.dek.encrypt data _ := codeBook_iff.mpr ⟨hmod, rfl⟩
  exact ⟨_, encryptSensitive_eq_ok_iff.mpr ⟨ch, hst, hcoded⟩, hcoded.enciphered⟩

theorem encryptSensitive_append {a b x y : List UInt8} (ha : s.encryptSensitive a = .ok x)
    (hb : s.encryptSensitive b = .ok y) : s.encryptSensitive (a ++ b) = .ok (x ++ y) := by
  obtain ⟨ch, hst, hx⟩ := encryptSensitive_eq_ok_iff.mp ha
  obtain ⟨ch', hst', hy⟩ := encryptSensitive_eq_ok_iff.mp hb
  obtain rfl : ch = ch' := Stage.opened.inj (hst.symm.trans hst')
  exact encryptSensitive_eq_ok_iff.mpr ⟨ch, hst, hx.append hy⟩

/-! ### A channel that is kept -/

theorem Transition.kept (h : s.Transition operation events result next)
    (hkeeps : Step.Keeps ⟨s.keys, operation, events, result⟩) (hst : s.stage = .opened ch) :
    ∃ after, next.stage = .opened after ∧ Channel.Continues ch after := by
  cases h with
  | refused | encrypted => exact ⟨ch, hst, .refl ch⟩
  | carried _ stage _ _ received =>
    obtain rfl := Stage.opened.inj (stage.symm.trans hst)
    exact ⟨_, rfl, Channel.continues_of_received received⟩
  | closed => exact absurd rfl hkeeps.notClose
  | lost =>
    rcases hkeeps.quiet with hsilent | ⟨-, answer, hanswer⟩
    · simp [Step.exchanges] at hsilent
    · cases hanswer
  | _ =>
    -- A handshake shows on the wire, and is no command for the channel.
    rcases hkeeps.quiet with hsilent | ⟨⟨c, hc⟩, -⟩
    · simp [Step.exchanges] at hsilent
    · cases hc

theorem Sound.kept (hs : s.Sound) (h : Run s steps last) (hkeeps : ∀ step ∈ steps, step.Keeps)
    (hst : s.stage = .opened ch) :
    ∃ after, last.stage = .opened after ∧ Channel.Continues ch after := by
  induction h generalizing ch with
  | done => exact ⟨ch, hst, .refl ch⟩
  | step first _ ih =>
    obtain ⟨ht, hnext⟩ := hs.step first
    obtain ⟨mid, hmid, hcont⟩ := ht.kept (hkeeps _ List.mem_cons_self) hst
    obtain ⟨after, hafter, hrest⟩ :=
      ih hnext (fun step hmem => hkeeps step (List.mem_cons_of_mem _ hmem)) hmid
    exact ⟨after, hafter, hcont.trans hrest⟩

/-- The key is that of the channel, and so no other data have the same result while it is kept. -/
theorem encryptSensitive_unique {a b : List UInt8} (hs : s.Sound) (h : Run s steps last)
    (hkeeps : ∀ step ∈ steps, step.Keeps) (ha : s.encryptSensitive a = .ok bytes)
    (hb : last.encryptSensitive b = .ok bytes) : a = b := by
  obtain ⟨ch, hst, hcoded⟩ := encryptSensitive_eq_ok_iff.mp ha
  obtain ⟨after, hafter, hcont⟩ := hs.kept h hkeeps hst
  obtain ⟨ch', hst', hcoded'⟩ := encryptSensitive_eq_ok_iff.mp hb
  obtain rfl : ch' = after := Stage.opened.inj (hst'.symm.trans hafter)
  rw [hcont.keys] at hcoded'
  exact hcoded.source_unique ch.keys.dek.decrypt_encrypt hcoded'

end Session

namespace Stepwise

open Dialogue

variable {f : Fields} {s : Session}

/-! ### Sequences of operations without it -/

namespace Fields

variable {σ : Type}

/-- Perform operations one after the other against a reader, each with a provider of keys. -/
def play (reader : Reader σ) (f : Fields) :
    List (KeyProvider × Operation) → σ → List Step × Fields × σ
  | [], state => ([], f, state)
  | (keys, operation) :: rest, state =>
    let (events, (result, f), state) := (f.perform keys operation).record reader state
    let (steps, outcome) := f.play reader rest state
    (⟨keys, operation, events, result⟩ :: steps, outcome)

theorem play_encryptSensitive (reader : Reader σ) (f : Fields) (keys : KeyProvider)
    (data : List UInt8) (rest : List (KeyProvider × Operation)) (state : σ) :
    f.play reader ((keys, .encryptSensitive data) :: rest) state =
      (⟨keys, .encryptSensitive data, [], (f.encryptSensitive data).map .bytes⟩ ::
        (f.play reader rest state).1, (f.play reader rest state).2) := rfl

/-- Every other operation gives what it gives with the encryptions in between. -/
theorem play_without (reader : Reader σ) (f : Fields)
    (operations : List (KeyProvider × Operation)) (state : σ) :
    f.play reader (operations.filter fun (_, operation) => !operation.encrypts) state =
      ((f.play reader operations state).1.filter (fun step => !step.operation.encrypts),
        (f.play reader operations state).2) := by
  induction operations generalizing f state with
  | nil => rfl
  | cons first rest ih =>
    obtain ⟨keys, operation⟩ := first
    cases hencrypts : operation.encrypts with
    | true =>
      -- Neither the fields nor the reader have changed when the rest goes on.
      obtain ⟨data, rfl⟩ : ∃ data, operation = .encryptSensitive data := by
        cases operation <;> cases hencrypts
        exact ⟨_, rfl⟩
      rw [play_encryptSensitive, List.filter_cons_of_neg (by simp [hencrypts]), ih,
        List.filter_cons_of_neg (by simp [hencrypts])]
    | false =>
      rw [List.filter_cons_of_pos (by simp [hencrypts])]
      simp only [play]
      rw [ih, List.filter_cons_of_pos (by simp [hencrypts])]

theorem exchanges_of_encrypts (reader : Reader σ) (f : Fields)
    (operations : List (KeyProvider × Operation)) (state : σ) :
    ∀ step ∈ (f.play reader operations state).1,
      step.operation.encrypts = true → step.exchanges = [] := by
  induction operations generalizing f state with
  | nil => exact fun step hmem => absurd hmem List.not_mem_nil
  | cons first rest ih =>
    obtain ⟨keys, operation⟩ := first
    intro step hmem hencrypts
    rcases List.mem_cons.mp hmem with rfl | hmem
    · cases operation with
      | encryptSensitive data => rfl
      | _ => cases hencrypts
    · exact ih _ _ step hmem hencrypts

end Fields

/-! ### One reachable state, and runs from it -/

/-- In every state that a session gets into, sensitive data are encrypted if and only if a channel is
open and the data are whole blocks; the result is then that of the data part by part, and as long as
the channel is kept no other data have it.  Nothing is sent for it and nothing changes, so that a
sequence of operations hands over the same without it, against any reader. -/
theorem encryptSensitive_blockwise {keys : KeyProvider} {card : CardProfile} {config : Config}
    {new : Session} {steps : List Step}
    (created : Session.create keys card config = .ok new) (run : Fields.Run new.fields steps f) :
    (∀ data, f.encryptSensitive data = .error .noSecureChannel ↔ f.phase ≠ .opened) ∧
    (∀ data, (∃ detail, f.encryptSensitive data = .error (.crypto detail)) ↔
      f.phase = .opened ∧ data.length % 8 ≠ 0) ∧
    (∀ data, f.phase = .opened → data.length % 8 = 0 → ∃ ch bytes, f.channel = some ch ∧
      f.encryptSensitive data = .ok bytes ∧ Enciphered ch.keys.dek data bytes) ∧
    (∀ a b x y, f.encryptSensitive a = .ok x → f.encryptSensitive b = .ok y →
      f.encryptSensitive (a ++ b) = .ok (x ++ y)) ∧
    (∀ later g a b bytes, Fields.Run f later g → (∀ step ∈ later, step.Keeps) →
      f.encryptSensitive a = .ok bytes → g.encryptSensitive b = .ok bytes → a = b) ∧
    (∀ provider data, f.perform provider (.encryptSensitive data) =
      done ((f.encryptSensitive data).map .bytes, f)) ∧
    ∀ {σ : Type} (reader : Reader σ) (operations : List (KeyProvider × Operation)) (state : σ),
      f.play reader (operations.filter fun (_, operation) => !operation.encrypts) state =
        ((f.play reader operations state).1.filter (fun step => !step.operation.encrypts),
          (f.play reader operations state).2) ∧
      wire (f.play reader (operations.filter fun (_, operation) => !operation.encrypts) state).1 =
        wire (f.play reader operations state).1 := by
  have hnew := Session.sound_of_create created
  obtain ⟨s, hrun, rfl⟩ := (run_fields_iff hnew).mp run
  have hs := hnew.run hrun
  simp only [ne_eq, phase_eq_opened_iff, encryptSensitive_fields]
  refine ⟨fun data => Session.encryptSensitive_eq_noSecureChannel_iff,
    fun data => Session.exists_crypto_iff, ?_, ?_, ?_, fun provider data => ?_, ?_⟩
  · rintro data ⟨ch, hst⟩ hmod
    obtain ⟨bytes, hbytes, henciphered⟩ := Session.exists_enciphered hst hmod
    exact ⟨ch, bytes, Session.channel?_eq_some_iff.mpr hst, hbytes, henciphered⟩
  · exact fun a b x y => Session.encryptSensitive_append
  · intro later g a b bytes hlater hkeeps ha hb
    obtain ⟨last, hlast, rfl⟩ := (run_fields_iff hs).mp hlater
    rw [encryptSensitive_fields] at hb
    exact Session.encryptSensitive_unique hs hlast hkeeps ha hb
  · rw [Fields.perform, encryptSensitive_fields]
  · intro σ reader operations state
    have hwithout := s.fields.play_without reader operations state
    refine ⟨hwithout, ?_⟩
    rw [hwithout]
    exact wire_filter fun step hmem hencrypts =>
      s.fields.exchanges_of_encrypts reader operations state step hmem (by simpa using hencrypts)

/-- A key of two blocks is encrypted block by block, and half a block is refused. -/
theorem encryptSensitive_blockwise_unmodified :
    Session.create KeySet.default ⟨none, some ⟨0x17⟩⟩ Card.unmodified.config = .ok Card.unmodified ∧
    ∃ steps f x y, Fields.Run Card.unmodified.fields steps f ∧ f.phase = .opened ∧
      f.encryptSensitive ([0x40, 0x41, 0x42, 0x43, 0x44, 0x45, 0x46, 0x47] ++
        [0x48, 0x49, 0x4A, 0x4B, 0x4C, 0x4D, 0x4E, 0x4F]) = .ok (x ++ y) ∧
      x.length = 8 ∧ y.length = 8 ∧ x ≠ y ∧
      ∃ detail, f.encryptSensitive [0x40, 0x41, 0x42, 0x43] = .error (.crypto detail) := by
  have hcreate := Card.create_unmodified
  have hlevel : SecurityLevel.cMacOnly.validate = .ok () := rfl
  obtain ⟨steps, ch, hrun, -⟩ := Card.exists_run_opened hlevel
  have hfields : Fields.Run Card.unmodified.fields steps
      (Card.unmodified.enter (.opened ch)).fields :=
    (run_fields_iff (Session.sound_of_create hcreate)).mpr ⟨_, hrun, rfl⟩
  obtain ⟨-, hrefused, hsealed, happend, hunique, -, -⟩ :=
    encryptSensitive_blockwise hcreate hfields
  obtain ⟨_, x, -, hx, hxcoded⟩ := hsealed [0x40, 0x41, 0x42, 0x43, 0x44, 0x45, 0x46, 0x47] rfl rfl
  obtain ⟨_, y, -, hy, hycoded⟩ := hsealed [0x48, 0x49, 0x4A, 0x4B, 0x4C, 0x4D, 0x4E, 0x4F] rfl rfl
  refine ⟨hcreate, steps, _, x, y, hfields, rfl, happend _ _ _ _ hx hy, hxcoded.length,
    hycoded.length, ?_, (hrefused _).mpr ⟨rfl, by decide⟩⟩
  rintro rfl
  have hsame := hunique [] _ _ _ x (.done _) (fun _ hmem => absurd hmem List.not_mem_nil) hx hy
  cases hsame

end Stepwise

end CardChannel
