import CardChannel.Apdu.Error
import CardChannel.Apdu.StatusWord

/-! The answer of a card: data of any length and a status word in the last two bytes. -/

namespace CardChannel

structure Response where
  payload : List UInt8
  status : StatusWord
deriving DecidableEq, Repr

namespace Response

def success (payload : List UInt8) : Response := ⟨payload, .success⟩

/-- An answer that holds a status alone. -/
def failure (status : StatusWord) : Response := ⟨[], status⟩

def isSuccess (r : Response) : Bool := r.status.isSuccess

def toBytes (r : Response) : List UInt8 := r.payload ++ r.status.toBytes

def ofBytes (bytes : List UInt8) : Except ResponseError Response :=
  match bytes.reverse with
  | sw2 :: sw1 :: rest => .ok ⟨rest.reverse, ⟨sw1, sw2⟩⟩
  | _ => .error .incomplete

theorem ofBytes_toBytes (r : Response) : ofBytes r.toBytes = .ok r := by
  simp [ofBytes, toBytes, StatusWord.toBytes]

theorem ofBytes_eq_ok_iff {bytes : List UInt8} {r : Response} :
    ofBytes bytes = .ok r ↔ bytes = r.toBytes := by
  constructor
  · intro h
    unfold ofBytes at h
    split at h
    · rename_i sw2 sw1 rest heq
      cases h
      have := congrArg List.reverse heq
      simpa [toBytes, StatusWord.toBytes] using this
    · contradiction
  · rintro rfl
    exact ofBytes_toBytes r

end Response

end CardChannel
