import CardChannel.Dialogue

/-! The runs of a dialogue.  `Trace d events value` says that some reader takes `d` through `events`
to `value`.  A trace of two dialogues in a row is one of the first followed by one of the second:
`trace_bind_iff`. -/

namespace CardChannel.Dialogue

variable {α β : Type}

/-- What an onlooker sees of a dialogue. -/
inductive Event where
  | sent (apdu : List UInt8) (reply : Reply)
  | drawn (challenge : Block)

inductive Trace : Dialogue α → List Event → α → Prop where
  | done (value : α) : Trace (.done value) [] value
  | send {apdu : List UInt8} {next : Reply → Dialogue α} {reply : Reply} {events : List Event}
      {value : α} (rest : Trace (next reply) events value) :
      Trace (.send apdu next) (.sent apdu reply :: events) value
  | draw {next : Block → Dialogue α} {challenge : Block} {events : List Event} {value : α}
      (rest : Trace (next challenge) events value) :
      Trace (.draw next) (.drawn challenge :: events) value

theorem bind_eq (d : Dialogue α) (f : α → Dialogue β) : d >>= f = d.bind f := rfl

instance : LawfulMonad Dialogue :=
  LawfulMonad.mk' Dialogue
    (fun d => by
      show d.bind done = d
      induction d with
      | done => rfl
      | send apdu next ih => exact congrArg (send apdu) (funext ih)
      | draw next ih => exact congrArg draw (funext ih))
    (fun _ _ => rfl)
    (fun d f g => by
      show (d.bind f).bind g = d.bind fun a => (f a).bind g
      induction d with
      | done => rfl
      | send apdu next ih => exact congrArg (send apdu) (funext ih)
      | draw next ih => exact congrArg draw (funext ih))

theorem trace_done_iff {value result : α} {events : List Event} :
    Trace (.done value) events result ↔ events = [] ∧ result = value :=
  ⟨fun h => by cases h; exact ⟨rfl, rfl⟩, fun ⟨h₁, h₂⟩ => h₁ ▸ h₂ ▸ .done value⟩

theorem trace_bind_iff {d : Dialogue α} {f : α → Dialogue β} {events : List Event} {result : β} :
    Trace (d >>= f) events result ↔
      ∃ first second value, events = first ++ second ∧ Trace d first value ∧
        Trace (f value) second result := by
  rw [bind_eq]
  constructor
  · intro h
    induction d generalizing events with
    | done value => exact ⟨[], events, value, rfl, .done value, h⟩
    | send apdu next ih =>
      cases h with
      | send rest =>
        obtain ⟨first, second, value, rfl, h₁, h₂⟩ := ih _ rest
        exact ⟨_ :: first, second, value, rfl, .send h₁, h₂⟩
    | draw next ih =>
      cases h with
      | draw rest =>
        obtain ⟨first, second, value, rfl, h₁, h₂⟩ := ih _ rest
        exact ⟨_ :: first, second, value, rfl, .draw h₁, h₂⟩
  · rintro ⟨first, second, value, rfl, h₁, h₂⟩
    induction h₁ with
    | done => exact h₂
    | send _ ih => exact .send (ih h₂)
    | draw _ ih => exact .draw (ih h₂)

theorem trace_map_iff {d : Dialogue α} {g : α → β} {events : List Event} {result : β} :
    Trace (g <$> d) events result ↔ ∃ value, Trace d events value ∧ result = g value := by
  rw [map_eq_pure_bind, trace_bind_iff]
  constructor
  · rintro ⟨first, second, value, rfl, h, hdone⟩
    obtain ⟨rfl, rfl⟩ := trace_done_iff.mp hdone
    exact ⟨value, by rwa [List.append_nil], rfl⟩
  · rintro ⟨value, h, rfl⟩
    exact ⟨events, [], value, (List.append_nil _).symm, h, .done _⟩

end CardChannel.Dialogue
