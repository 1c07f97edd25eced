import RowIndex.Error

/-!
# Program — programs that change a state in place and can fail

A program that fails leaves behind what it changed before.  So it has two readings: what it gives,
if it succeeds (`outcome`), and the state in which it ends, succeed or not (`finalState`).
-/

namespace RowIndex

variable {σ τ α : Type}

/-- What a program gives, with the state it ends in, or why it fails. -/
def outcome (x : EStateM Error σ α) (s : σ) : Except Error (α × σ) :=
  match x.run s with
  | .ok a s' => .ok (a, s')
  | .error e _ => .error e

/-- The state that a program ends in, whether it succeeds or fails. -/
def finalState (x : EStateM Error σ α) (s : σ) : σ :=
  match x.run s with
  | .ok _ s' => s'
  | .error _ s' => s'

/-- The end of a program on a part, as that of a program on the whole. -/
def mapEnd (whole : τ → σ) : EStateM.Result Error τ α → EStateM.Result Error σ α
  | .ok a t => .ok a (whole t)
  | .error e t => .error e (whole t)

end RowIndex
