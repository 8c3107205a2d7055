import CardChannel.Proofs.Wrapping

/-! What a caller does with a channel: commands are wrapped and responses unwrapped, in any order.
`log` is the record of a sequence of calls and `after` the channel that it leads to.  `Performed`
lists all that one call can do, and `run_induction` carries a property of the record and the channel
from one call to a whole sequence. -/

namespace CardChannel.Channel

inductive Call where
  | wrap (c : Command)
  | unwrap (r : Response)

/-- A call and what it gave. -/
inductive Entry where
  | wrapped (c : Command) (result : Except Error Command)
  | unwrapped (r : Response) (result : Except Error Response)

/-- The command that the call wraps. -/
def Call.command? : Call → Option Command
  | wrap c => some c
  | unwrap _ => none

namespace Entry

/-- A command that was accepted, and what was made of it. -/
def command? : Entry → Option (Command × Command)
  | wrapped c (.ok w) => some (c, w)
  | _ => none

/-- A response that was accepted. -/
def response? : Entry → Option Response
  | unwrapped r (.ok _) => some r
  | _ => none

end Entry

def perform (ch : Channel) : Call → Entry × Channel
  | .wrap c => (.wrapped c (ch.wrap c).1, (ch.wrap c).2)
  | .unwrap r => (.unwrapped r (ch.unwrap r).1, (ch.unwrap r).2)

/-- The channel once the calls are made. -/
def after (ch : Channel) : List Call → Channel
  | [] => ch
  | call :: rest => (ch.perform call).2.after rest

/-- The calls with what they gave. -/
def log (ch : Channel) : List Call → List Entry
  | [] => []
  | call :: rest => (ch.perform call).1 :: (ch.perform call).2.log rest

/-- The commands that were accepted, in order, each with what was made of it. -/
def wrapped (log : List Entry) : List (Command × Command) := log.filterMap Entry.command?

/-- The responses that were accepted, in order. -/
def verified (log : List Entry) : List Response := log.filterMap Entry.response?

variable {ch first next : Channel} {call : Call} {entry : Entry} {entries : List Entry}

@[simp] theorem wrapped_append (front back : List Entry) :
    wrapped (front ++ back) = wrapped front ++ wrapped back := List.filterMap_append

@[simp] theorem verified_append (front back : List Entry) :
    verified (front ++ back) = verified front ++ verified back := List.filterMap_append

theorem wrapped_concat (h : entry.command? = none) :
    wrapped (entries ++ [entry]) = wrapped entries := by
  rw [wrapped_append, wrapped, wrapped, List.filterMap_cons, h, List.filterMap_nil,
    List.append_nil]

theorem verified_concat (h : entry.response? = none) :
    verified (entries ++ [entry]) = verified entries := by
  rw [verified_append, verified, verified, List.filterMap_cons, h, List.filterMap_nil,
    List.append_nil]

/-! ### One call -/

/-- A call, what it gives, and the channel after it. -/
inductive Performed (ch : Channel) : Call → Entry → Channel → Prop where
  | tooLong {c : Command} (long : ch.maxData < c.payload.length) :
      Performed ch (.wrap c)
        (.wrapped c (.error (.dataTooLong c.payload.length ch.maxData))) ch
  | protects {c : Command} (fits : c.payload.length ≤ ch.maxData) :
      Performed ch (.wrap c) (.wrapped c (.ok (ch.protect c))) (ch.advance c)
  | unchecked {r : Response} (level : ch.level.rMac = false) :
      Performed ch (.unwrap r) (.unwrapped r (.ok r)) ch
  | tooShort {r : Response} (level : ch.level.rMac = true) (short : r.payload.length < macLength) :
      Performed ch (.unwrap r) (.unwrapped r (.error responseTooShort)) ch
  | unasked {r : Response} (level : ch.level.rMac = true) (long : macLength ≤ r.payload.length)
      (command : ch.lastCommand = none) :
      Performed ch (.unwrap r) (.unwrapped r (.error noCommand)) ch
  | forged {r : Response} {last : List UInt8} (level : ch.level.rMac = true)
      (long : macLength ≤ r.payload.length) (command : ch.lastCommand = some last)
      (unsigned : ∀ plain, r ≠ ch.sign last plain) :
      Performed ch (.unwrap r) (.unwrapped r (.error invalidResponseMac)) ch
  | verified {plain : Response} {last : List UInt8} (level : ch.level.rMac = true)
      (command : ch.lastCommand = some last) :
      Performed ch (.unwrap (ch.sign last plain)) (.unwrapped (ch.sign last plain) (.ok plain))
        { ch with responseIcv := ch.responseMac last plain.payload plain.status }

theorem performed_wrap (ch : Channel) (c : Command) :
    Performed ch (.wrap c) (.wrapped c (ch.wrap c).1) (ch.wrap c).2 := by
  by_cases hle : c.payload.length ≤ ch.maxData
  · rw [wrap_of_le hle]
    exact .protects hle
  · have hlt : ch.maxData < c.payload.length := Nat.lt_of_not_le hle
    rw [wrap_of_lt hlt]
    exact .tooLong hlt

section Unwrap

variable {r : Response} {last : List UInt8}

theorem unwrap_of_lt (hl : ch.level.rMac = true) (hshort : r.payload.length < macLength) :
    ch.unwrap r = (.error responseTooShort, ch) := by
  rw [unwrap, if_pos hl, if_pos hshort]

theorem unwrap_of_none (hl : ch.level.rMac = true) (hlong : macLength ≤ r.payload.length)
    (hc : ch.lastCommand = none) : ch.unwrap r = (.error noCommand, ch) := by
  rw [unwrap, if_pos hl, if_neg (Nat.not_lt.mpr hlong), hc]

theorem unwrap_of_unsigned (hl : ch.level.rMac = true) (hlong : macLength ≤ r.payload.length)
    (hc : ch.lastCommand = some last) (hsigned : ∀ plain, r ≠ ch.sign last plain) :
    ch.unwrap r = (.error invalidResponseMac, ch) := by
  let data := r.payload.take (r.payload.length - macLength)
  have hr : r.payload = data ++ r.payload.drop (r.payload.length - macLength) :=
    (List.take_append_drop _ _).symm
  rw [unwrap_of_length hl hc hr (by rw [List.length_drop]; omega)]
  refine if_neg fun hmac => hsigned ⟨data, r.status⟩ ?_
  rw [sign, ← hmac, ← hr]

end Unwrap

theorem performed_unwrap (ch : Channel) (r : Response) :
    Performed ch (.unwrap r) (.unwrapped r (ch.unwrap r).1) (ch.unwrap r).2 := by
  cases hl : ch.level.rMac with
  | false =>
    rw [unwrap_of_unchecked hl]
    exact .unchecked hl
  | true =>
    by_cases hshort : r.payload.length < macLength
    · rw [unwrap_of_lt hl hshort]
      exact .tooShort hl hshort
    have hlong : macLength ≤ r.payload.length := Nat.le_of_not_lt hshort
    cases hc : ch.lastCommand with
    | none =>
      rw [unwrap_of_none hl hlong hc]
      exact .unasked hl hlong hc
    | some last =>
      by_cases hsigned : ∃ plain, r = ch.sign last plain
      · obtain ⟨plain, rfl⟩ := hsigned
        rw [unwrap_sign hl hc]
        exact .verified hl hc
      · have hunsigned := not_exists.mp hsigned
        rw [unwrap_of_unsigned hl hlong hc hunsigned]
        exact .forged hl hlong hc hunsigned

theorem performed (ch : Channel) (call : Call) :
    Performed ch call (ch.perform call).1 (ch.perform call).2 := by
  cases call with
  | wrap c => exact ch.performed_wrap c
  | unwrap r => exact ch.performed_unwrap r

namespace Performed

theorem continues (h : Performed ch call entry next) : Continues ch next := by
  cases h with
  | protects => exact ch.continues_advance _
  | verified => exact ⟨rfl, rfl, rfl, rfl⟩
  | _ => exact .refl ch

/-- A rejected call changes nothing. -/
theorem eq_of_rejected (h : Performed ch call entry next) (hc : entry.command? = none)
    (hr : entry.response? = none) : next = ch := by
  cases h with
  | protects => cases hc
  | unchecked | verified => cases hr
  | _ => rfl

/-- Only a command that is accepted moves the chain of commands. -/
theorem icv_eq (h : Performed ch call entry next) (hc : entry.command? = none) :
    next.icv = ch.icv := by
  cases h with
  | protects => cases hc
  | _ => rfl

theorem wrapped_entry (h : Performed ch call entry next) :
    (wrapped [entry]).map Prod.fst =
      ([call].filterMap Call.command?).filter fun c => c.payload.length ≤ ch.maxData := by
  cases h with
  | tooLong long => simp [wrapped, Entry.command?, Call.command?, Nat.not_le.mpr long]
  | protects fits => simp [wrapped, Entry.command?, Call.command?, fits]
  | _ => rfl

end Performed

/-! ### All calls -/

/-- A channel before its first call. -/
structure Fresh (keys : SessionKeys) (options : Options) (level : SecurityLevel)
    (seed : Option Block) (ch : Channel) : Prop where
  keys : ch.keys = keys
  options : ch.options = options
  level : ch.level = level
  icv : ch.icv = seed
  responseIcv : ch.responseIcv = seed.getD .zero
  lastCommand : ch.lastCommand = none
  fits : ch.Fits

theorem fresh_of_create {keys : SessionKeys} {options : Options} {level : SecurityLevel}
    {seed : Option Block} {max : Nat} (h : create keys options level seed max = .ok ch) :
    Fresh keys options level seed ch := by
  have hf := fits_of_create h
  obtain ⟨-, room, -, rfl⟩ := create_eq_ok_iff.mp h
  exact ⟨rfl, rfl, rfl, rfl, rfl, rfl, hf⟩

/-- What holds at first and is kept by every call holds after every sequence of calls. -/
theorem run_induction {motive : List Entry → Channel → Prop} (start : motive [] first)
    (step : ∀ {entries ch call entry next}, Continues first ch → motive entries ch →
      Performed ch call entry next → motive (entries ++ [entry]) next) (calls : List Call) :
    motive (first.log calls) (first.after calls) := by
  suffices h : ∀ entries ch, Continues first ch → motive entries ch →
      motive (entries ++ ch.log calls) (ch.after calls) from h [] first (.refl first) start
  induction calls with
  | nil =>
    intro entries ch _ hm
    rwa [log, List.append_nil]
  | cons call rest ih =>
    intro entries ch hc hm
    have hp := ch.performed call
    have hnext := ih _ _ (hc.trans hp.continues) (step hc hm hp)
    rwa [List.append_assoc] at hnext

theorem continues_after (ch : Channel) (calls : List Call) : Continues ch (ch.after calls) :=
  run_induction (motive := fun _ next => Continues ch next) (.refl ch)
    (fun _ hm hp => hm.trans hp.continues) calls

/-- Whether a command is accepted depends on nothing but its length. -/
theorem wrapped_log (ch : Channel) (calls : List Call) :
    (wrapped (ch.log calls)).map Prod.fst =
      (calls.filterMap Call.command?).filter fun c => c.payload.length ≤ ch.maxData := by
  induction calls generalizing ch with
  | nil => rfl
  | cons call rest ih =>
    have hp := ch.performed call
    have hrest := ih (ch.perform call).2
    rw [hp.continues.maxData] at hrest
    rw [log, ← List.singleton_append, ← List.singleton_append (l := rest), wrapped_append,
      List.map_append, hp.wrapped_entry, hrest, List.filterMap_append, List.filter_append]

/-! ### One session -/

/-- The keys of a recorded session. -/
def sampleKeys : SessionKeys where
  enc := ⟨⟨0x0BBBCBF2BC4D8389⟩, ⟨0x8C383D88C3876144⟩⟩
  mac := ⟨⟨0xA071E1C77297BF45⟩, ⟨0x6E1BFCF1C3A677A4⟩⟩
  dek := ⟨⟨0x00E8A98ED4D1CCE4⟩, ⟨0x6E7E2B2B31556BA3⟩⟩
  rMac := ⟨⟨0x9DC8AFF8FB06B2C5⟩, ⟨0xAB6C58AE1881AD5A⟩⟩

def sampleLevel : SecurityLevel := ⟨true, true, true, false⟩

def sampleSeed : Block := ⟨0x94373CCB68A4C173⟩

/-- Its channel, with all protections. -/
def sample : Channel :=
  ⟨sampleKeys, .default, sampleLevel, 239, some sampleSeed, sampleSeed, none⟩

theorem create_sample :
    create sampleKeys .default sampleLevel (some sampleSeed) 255 = .ok sample := rfl

def sampleCommand : Command :=
  ⟨0x80, 0xF2, 0x40, 0x00,
    some [0x4F, 0x09, 0xF0, 0x00, 0x00, 0x00, 0x88, 0x00, 0x01, 0x01, 0x01], none⟩

/-- The data of the command, encrypted. -/
def sampleBody : List UInt8 :=
  [0xFD, 0x42, 0x90, 0xF0, 0xAD, 0x41, 0x00, 0xE0, 0xA5, 0x68, 0xE8, 0x13, 0x96, 0x0D, 0xF4, 0x79]

/-- The command as it is sent with this MAC. -/
def sampleWrapped (mac : Block) : Command :=
  { sampleCommand with cla := 0x84, data := some (sampleBody ++ mac.toBytes) }

def sampleMac : Block := ⟨0xAFA8F841D435A3E6⟩

/-- The channel once the command is sent. -/
def sampleSent : Channel :=
  { sample with icv := some sampleMac, lastCommand := some (remembered sampleCommand) }

theorem protectPayload_sample : sample.protectPayload sampleCommand.payload = sampleBody := by
  decide +kernel

theorem wrap_sample :
    sample.wrap sampleCommand = (.ok (sampleWrapped sampleMac), sampleSent) := by
  have hmac : sample.commandMac sampleCommand = sampleMac := by decide +kernel
  have hadvance : sample.advance sampleCommand =
      { sample.remember sampleCommand with icv := some (sample.commandMac sampleCommand) } := rfl
  rw [wrap_of_le (by decide), protect_of_true rfl, hadvance, hmac, protectPayload_sample]
  rfl

/-- A response of eight zeros, which is long enough to have a MAC. -/
def sampleZeros : Response := .success (List.replicate 8 0)

/-- A command with more data than fit. -/
def sampleLong : Command := { sampleCommand with data := some (List.replicate 240 0) }

/-- A response before there was a command, the command, and one that is too long. -/
def sampleCalls : List Call := [.unwrap sampleZeros, .wrap sampleCommand, .wrap sampleLong]

theorem unwrap_sampleZeros : sample.unwrap sampleZeros = (.error noCommand, sample) :=
  unwrap_of_none rfl (by decide) rfl

theorem wrap_sampleLong :
    sampleSent.wrap sampleLong = (.error (.dataTooLong 240 239), sampleSent) := by
  have hlength : sampleLong.payload.length = 240 := List.length_replicate
  rw [wrap_of_lt (by rw [hlength]; decide), hlength]
  rfl

theorem after_sampleCalls (rest : List Call) :
    sample.after (sampleCalls ++ rest) = sampleSent.after rest := by
  simp only [sampleCalls, List.cons_append, List.nil_append, after, perform, unwrap_sampleZeros,
    wrap_sample, wrap_sampleLong]

theorem log_sampleCalls (rest : List Call) :
    sample.log (sampleCalls ++ rest) =
      [.unwrapped sampleZeros (.error noCommand),
        .wrapped sampleCommand (.ok (sampleWrapped sampleMac)),
        .wrapped sampleLong (.error (.dataTooLong 240 239))] ++ sampleSent.log rest := by
  simp only [sampleCalls, List.cons_append, List.nil_append, log, perform, unwrap_sampleZeros,
    wrap_sample, wrap_sampleLong]

end CardChannel.Channel
