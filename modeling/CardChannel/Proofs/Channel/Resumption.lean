import CardChannel.Proofs.Channel.Calls

/-! Exchanges on a channel, and channels that go on from where it stood.  In a `turn` a command is
wrapped and, if that succeeds, a response is unwrapped.  Of the two chains, the command depends on
its own alone and so does the verdict on the response: `sent_turn_congr` and `received_turn_congr`.
So either half of a turn comes out the same on a new channel that starts from the value that the
one chain had reached, whatever the other one is (`resumes_turns`), and over any number of turns no
response has a part in a command and no command MAC in a verdict. -/

namespace CardChannel.Channel

/-- One exchange, with the channel before and after it. -/
structure Turn where
  before : Channel
  command : Command
  response : Response
  wrapped : Except Error Command
  /-- What became of the response, or the reason why there was no command to send. -/
  verdict : Except Error Response
  after : Channel

/-- Wrap the command and, if that succeeds, unwrap the response. -/
def turn (ch : Channel) (c : Command) (r : Response) : Turn :=
  match ch.wrap c with
  | (.error error, after) => ⟨ch, c, r, .error error, .error error, after⟩
  | (.ok wrapped, sent) => ⟨ch, c, r, .ok wrapped, (sent.unwrap r).1, (sent.unwrap r).2⟩

/-- Exchanges one after the other. -/
def turns (ch : Channel) : List (Command × Response) → List Turn
  | [] => []
  | (c, r) :: rest => ch.turn c r :: (ch.turn c r).after.turns rest

namespace Turn

/-- What the turn made of the command, and the chain of commands after it. -/
def sent (t : Turn) : Except Error Command × Option Block := (t.wrapped, t.after.icv)

/-- What the turn made of the response, and the chain of responses after it. -/
def received (t : Turn) : Except Error Response × Block := (t.verdict, t.after.responseIcv)

end Turn

variable {a b ch first : Channel} {c : Command} {r : Response}

/-! ### One turn -/

theorem turn_of_lt (h : ch.maxData < c.payload.length) :
    ch.turn c r =
      ⟨ch, c, r, .error (.dataTooLong c.payload.length ch.maxData),
        .error (.dataTooLong c.payload.length ch.maxData), ch⟩ := by
  rw [turn, wrap_of_lt h]

theorem turn_of_le (h : c.payload.length ≤ ch.maxData) :
    ch.turn c r =
      ⟨ch, c, r, .ok (ch.protect c), ((ch.advance c).unwrap r).1, ((ch.advance c).unwrap r).2⟩ := by
  rw [turn, wrap_of_le h]

@[simp] theorem before_turn (ch : Channel) (c : Command) (r : Response) :
    (ch.turn c r).before = ch := by
  unfold turn
  split <;> rfl

@[simp] theorem command_turn (ch : Channel) (c : Command) (r : Response) :
    (ch.turn c r).command = c := by
  unfold turn
  split <;> rfl

@[simp] theorem response_turn (ch : Channel) (c : Command) (r : Response) :
    (ch.turn c r).response = r := by
  unfold turn
  split <;> rfl

theorem continues_turn (ch : Channel) (c : Command) (r : Response) :
    Continues ch (ch.turn c r).after := by
  by_cases h : c.payload.length ≤ ch.maxData
  · rw [turn_of_le h]
    exact (ch.continues_advance c).trans ((ch.advance c).continues_unwrap r)
  · rw [turn_of_lt (Nat.lt_of_not_le h)]
    exact .refl ch

/-- A turn never empties the chain of commands. -/
theorem icv_of_turn (h : (ch.turn c r).after.icv = none) : ch.icv = none := by
  by_cases hle : c.payload.length ≤ ch.maxData
  · rw [turn_of_le hle, icv_unwrap, icv_advance] at h
    split at h
    · cases h
    · exact h
  · rwa [turn_of_lt (Nat.lt_of_not_le hle)] at h

theorem after_turn_of_error {error : Error} (h : (ch.turn c r).wrapped = .error error) :
    (ch.turn c r).after = ch := by
  by_cases hle : c.payload.length ≤ ch.maxData
  · rw [turn_of_le hle] at h
    cases h
  · rw [turn_of_lt (Nat.lt_of_not_le hle)]

/-- A response that is rejected leaves the chain of responses where it was. -/
theorem responseIcv_turn_of_error {error : Error} (h : (ch.turn c r).verdict = .error error) :
    (ch.turn c r).after.responseIcv = ch.responseIcv := by
  by_cases hle : c.payload.length ≤ ch.maxData
  · rw [turn_of_le hle] at h ⊢
    obtain ⟨_, hunwrap, -⟩ | ⟨plain, icv, hunwrap⟩ := (ch.advance c).unwrap_cases r
    · rw [hunwrap, responseIcv_advance]
    · rw [hunwrap] at h
      cases h
  · rw [turn_of_lt (Nat.lt_of_not_le hle)]

/-- A command is wrapped from the chain of commands. -/
theorem wrap_congr (h : Continues a b) (hicv : a.icv = b.icv) (c : Command) :
    (a.wrap c).1 = (b.wrap c).1 ∧ (a.wrap c).2.icv = (b.wrap c).2.icv := by
  have hmac : a.commandMac c = b.commandMac c := by
    rw [commandMac, commandMac, nextInitial, nextInitial, h.keys, h.options, hicv]
  by_cases hle : c.payload.length ≤ a.maxData
  · rw [wrap_of_le hle, wrap_of_le (h.maxData ▸ hle)]
    constructor
    · simp only [protect, protectPayload, hmac, h.level, h.keys]
    · simp only [icv_advance, hmac, h.level, hicv]
  · have hlt : a.maxData < c.payload.length := Nat.lt_of_not_le hle
    rw [wrap_of_lt hlt, wrap_of_lt (h.maxData ▸ hlt), h.maxData]
    exact ⟨rfl, hicv⟩

/-- A response is unwrapped with the chain of responses and the command before it. -/
theorem unwrap_congr (h : Continues a b) (hicv : a.responseIcv = b.responseIcv)
    (hlast : a.level.rMac = true → a.lastCommand = b.lastCommand) (r : Response) :
    (a.unwrap r).1 = (b.unwrap r).1 ∧ (a.unwrap r).2.responseIcv = (b.unwrap r).2.responseIcv := by
  by_cases hl : a.level.rMac = true
  · have hl' : b.level.rMac = true := by rw [h.level, hl]
    have hmac (last data : List UInt8) (status : StatusWord) :
        b.responseMac last data status = a.responseMac last data status := by
      rw [responseMac, responseMac, h.keys, hicv]
    simp only [unwrap, if_pos hl, if_pos hl', ← hlast hl, hmac]
    split
    · exact ⟨rfl, hicv⟩
    · cases a.lastCommand with
      | none => exact ⟨rfl, hicv⟩
      | some last => dsimp only; split <;> first | exact ⟨rfl, rfl⟩ | exact ⟨rfl, hicv⟩
  · have hl' : ¬ b.level.rMac = true := by rwa [h.level]
    rw [unwrap, unwrap, if_neg hl, if_neg hl']
    exact ⟨rfl, hicv⟩

theorem sent_turn (ch : Channel) (c : Command) (r : Response) :
    (ch.turn c r).sent = ((ch.wrap c).1, (ch.wrap c).2.icv) := by
  by_cases h : c.payload.length ≤ ch.maxData
  · rw [turn_of_le h, wrap_of_le h, Turn.sent, icv_unwrap]
  · rw [turn_of_lt (Nat.lt_of_not_le h), wrap_of_lt (Nat.lt_of_not_le h), Turn.sent]

theorem sent_turn_congr (h : Continues a b) (hicv : a.icv = b.icv) (c : Command)
    (r r' : Response) : (a.turn c r).sent = (b.turn c r').sent := by
  obtain ⟨hwrapped, hafter⟩ := wrap_congr h hicv c
  rw [sent_turn, sent_turn, hwrapped, hafter]

/-- The response is checked against the command of its own turn, whatever was the last before. -/
theorem received_turn_congr (h : Continues a b) (hicv : a.responseIcv = b.responseIcv)
    (c : Command) (r : Response) : (a.turn c r).received = (b.turn c r).received := by
  by_cases hle : c.payload.length ≤ a.maxData
  · have hsent : Continues (a.advance c) (b.advance c) :=
      (a.continues_advance c).symm.trans (h.trans (b.continues_advance c))
    have hlast (hl : (a.advance c).level.rMac = true) :
        (a.advance c).lastCommand = (b.advance c).lastCommand := by
      rw [level_advance] at hl
      rw [lastCommand_advance, lastCommand_advance, if_pos hl, if_pos (h.level ▸ hl)]
    obtain ⟨hverdict, hafter⟩ := unwrap_congr hsent
      (by rw [responseIcv_advance, responseIcv_advance, hicv]) hlast r
    rw [turn_of_le hle, turn_of_le (h.maxData ▸ hle), Turn.received, Turn.received, hverdict,
      hafter]
  · have hlt : a.maxData < c.payload.length := Nat.lt_of_not_le hle
    rw [turn_of_lt hlt, turn_of_lt (h.maxData ▸ hlt), Turn.received, Turn.received, h.maxData, hicv]

/-! ### All turns -/

/-- Over any number of turns, the commands come out the same whatever the responses are. -/
theorem sent_turns_congr {xs ys : List (Command × Response)} (h : Continues a b)
    (hicv : a.icv = b.icv) (hcommands : xs.map Prod.fst = ys.map Prod.fst) :
    (a.turns xs).map Turn.sent = (b.turns ys).map Turn.sent := by
  induction xs generalizing a b ys with
  | nil =>
    obtain rfl : ys = [] := List.map_eq_nil_iff.mp hcommands.symm
    rfl
  | cons x xs ih =>
    obtain ⟨c, r⟩ := x
    cases ys with
    | nil => cases hcommands
    | cons y ys =>
      obtain ⟨c', r'⟩ := y
      obtain ⟨rfl, hrest⟩ : c = c' ∧ xs.map Prod.fst = ys.map Prod.fst := List.cons.inj hcommands
      -- The responses differ, and so after the turn only the chain of commands is the same.
      have hsent := sent_turn_congr h hicv c r r'
      have hafter : Continues (a.turn c r).after (b.turn c r').after :=
        (a.continues_turn c r).symm.trans (h.trans (b.continues_turn c r'))
      simp only [turns, List.map_cons, hsent, ih hafter (Prod.mk.inj hsent).2 hrest]

/-- Over any number of turns, the verdicts come out the same whatever the command MACs are. -/
theorem received_turns_congr (h : Continues a b) (hicv : a.responseIcv = b.responseIcv)
    (xs : List (Command × Response)) :
    (a.turns xs).map Turn.received = (b.turns xs).map Turn.received := by
  induction xs generalizing a b with
  | nil => rfl
  | cons x xs ih =>
    obtain ⟨c, r⟩ := x
    have hreceived := received_turn_congr h hicv c r
    have hafter : Continues (a.turn c r).after (b.turn c r).after :=
      (a.continues_turn c r).symm.trans (h.trans (b.continues_turn c r))
    simp only [turns, List.map_cons, hreceived, ih hafter (Prod.mk.inj hreceived).2]

theorem eq_turn_of_mem {xs : List (Command × Response)} :
    ∀ t ∈ first.turns xs, Continues first t.before ∧
      t = t.before.turn t.command t.response := by
  induction xs generalizing first with
  | nil => exact fun t hmem => absurd hmem List.not_mem_nil
  | cons x xs ih =>
    obtain ⟨c, r⟩ := x
    intro t hmem
    rcases List.mem_cons.mp hmem with rfl | hmem
    · rw [before_turn, command_turn, response_turn]
      exact ⟨.refl first, rfl⟩
    · obtain ⟨hcontinues, hturn⟩ := ih t hmem
      exact ⟨(first.continues_turn c r).trans hcontinues, hturn⟩

/-! ### New channels in its place -/

section Resumes

variable {keys : SessionKeys} {options : Options} {level : SecurityLevel} {seed : Option Block}
  {max : Nat}

/-- The command of the turn is wrapped alike by a new channel that starts from the chain of commands,
and its response is judged alike by a new one that starts from the chain of responses, once that
has wrapped the same command. -/
structure Turn.Resumes (t : Turn) (keys : SessionKeys) (options : Options) (level : SecurityLevel)
    (max : Nat) : Prop where
  sent : ∃ fresh, create keys options level t.before.icv max = .ok fresh ∧
    ((fresh.wrap t.command).1, (fresh.wrap t.command).2.icv) = t.sent
  received : ∃ fresh, create keys options level (some t.before.responseIcv) max = .ok fresh ∧
    (fresh.turn t.command t.response).received = t.received

/-- A channel can be started anew from any value of its chains. -/
theorem exists_fresh (h : create keys options level seed max = .ok first) (icv : Option Block) :
    ∃ fresh, create keys options level icv max = .ok fresh ∧ Continues fresh first ∧
      fresh.icv = icv ∧ fresh.responseIcv = icv.getD .zero := by
  obtain ⟨hlevel, room, hroom, rfl⟩ := create_eq_ok_iff.mp h
  exact ⟨_, create_eq_ok_iff.mpr ⟨hlevel, room, hroom, rfl⟩, ⟨rfl, rfl, rfl, rfl⟩, rfl, rfl⟩

theorem resumes_turns (h : create keys options level seed max = .ok first)
    (xs : List (Command × Response)) : ∀ t ∈ first.turns xs, t.Resumes keys options level max := by
  intro t hmem
  obtain ⟨hcontinues, hturn⟩ := eq_turn_of_mem t hmem
  constructor
  · obtain ⟨fresh, hfresh, hcommon, hicv, -⟩ := exists_fresh h t.before.icv
    have hsent := sent_turn_congr (hcommon.trans hcontinues) hicv t.command t.response t.response
    rw [← hturn, sent_turn] at hsent
    exact ⟨fresh, hfresh, hsent⟩
  · obtain ⟨fresh, hfresh, hcommon, -, hicv⟩ := exists_fresh h (some t.before.responseIcv)
    have hreceived := received_turn_congr (hcommon.trans hcontinues) hicv t.command t.response
    rw [← hturn] at hreceived
    exact ⟨fresh, hfresh, hreceived⟩

end Resumes

end CardChannel.Channel
