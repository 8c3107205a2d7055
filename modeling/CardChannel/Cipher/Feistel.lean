/-! Feistel networks.  A round swaps the halves of a block and adds, to the half that leaves the
front, a function of the other.  Running the rounds with the keys in reverse order on the swapped
result restores the swapped input, whatever the round function is: `swap_run_reverse`. -/

namespace CardChannel.Feistel

structure Halves where
  left : UInt32
  right : UInt32
deriving DecidableEq, Repr

def Halves.swap (h : Halves) : Halves := ⟨h.right, h.left⟩

variable {κ : Type}

def round (f : κ → UInt32 → UInt32) (h : Halves) (key : κ) : Halves :=
  ⟨h.right, h.left ^^^ f key h.right⟩

def run (f : κ → UInt32 → UInt32) (keys : List κ) (h : Halves) : Halves :=
  keys.foldl (round f) h

@[simp] theorem swap_swap (h : Halves) : h.swap.swap = h := rfl

theorem round_swap_round (f : κ → UInt32 → UInt32) (h : Halves) (key : κ) :
    round f (round f h key).swap key = h.swap := by
  show Halves.mk h.right (h.left ^^^ f key h.right ^^^ f key h.right) = h.swap
  rw [UInt32.xor_assoc, UInt32.xor_self, UInt32.xor_zero]
  rfl

theorem run_reverse_swap_run (f : κ → UInt32 → UInt32) (keys : List κ) (h : Halves) :
    run f keys.reverse (run f keys h).swap = h.swap := by
  induction keys generalizing h with
  | nil => rfl
  | cons key keys ih =>
    have step : run f (key :: keys) h = run f keys (round f h key) := rfl
    rw [step, List.reverse_cons, run, List.foldl_append]
    change round f (run f keys.reverse (run f keys (round f h key)).swap) key = h.swap
    rw [ih, round_swap_round]

/-- Reversing the keys undoes the rounds, up to the swap of the halves. -/
theorem swap_run_reverse (f : κ → UInt32 → UInt32) (keys : List κ) (h : Halves) :
    (run f keys.reverse (run f keys h).swap).swap = h := by
  rw [run_reverse_swap_run, swap_swap]

end CardChannel.Feistel
