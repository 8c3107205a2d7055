/-! Byte strings whose length is part of their type.  The fields of the handshake have fixed widths:
two bytes of sequence counter, six of card challenge, ten of diversification data.  `ofBytes?`
accepts a byte string of the right length only, and `slice` cuts a field out of a longer one. -/

namespace CardChannel

/-- A byte string of exactly `n` bytes. -/
structure Octets (n : Nat) where
  toList : List UInt8
  length_toList : toList.length = n
deriving DecidableEq

namespace Octets

variable {m n : Nat}

@[ext] theorem ext {a b : Octets n} (h : a.toList = b.toList) : a = b := by
  cases a
  cases b
  simp_all

def ofBytes? (n : Nat) (bytes : List UInt8) : Option (Octets n) :=
  if h : bytes.length = n then some ⟨bytes, h⟩ else none

/-- The `n` bytes from position `start`. -/
def slice (a : Octets m) (start n : Nat) (fits : start + n ≤ m) : Octets n :=
  ⟨(a.toList.drop start).take n, by simp [a.length_toList]; omega⟩

def get (a : Octets m) (i : Nat) (fits : i < m) : UInt8 :=
  a.toList.get ⟨i, by simp [a.length_toList, fits]⟩

theorem ofBytes?_toList (a : Octets n) : ofBytes? n a.toList = some a := by
  simp [ofBytes?, a.length_toList]

theorem ofBytes?_eq_some_iff {bytes : List UInt8} {a : Octets n} :
    ofBytes? n bytes = some a ↔ a.toList = bytes := by
  constructor
  · intro h
    unfold ofBytes? at h
    split at h
    · cases h
      rfl
    · contradiction
  · rintro rfl
    exact ofBytes?_toList a

end Octets

end CardChannel
