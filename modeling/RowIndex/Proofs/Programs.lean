import RowIndex.Program

/-!
# Proofs/Programs — programs that change a state in place and can fail

A program that fails leaves behind what it changed before.  One that checks first and changes
afterwards ends as a function does that gives a new state or an error (`settle`).
-/

namespace RowIndex

variable {σ τ α β : Type}

/-- The end of a program that changes nothing when it fails. -/
def settle (s : σ) : Except Error (α × σ) → EStateM.Result Error σ α
  | .ok (a, s') => .ok a s'
  | .error e => .error e s

theorem settle_eq_error_iff {s s' : σ} {r : Except Error (α × σ)} {e : Error} :
    settle s r = .error e s' ↔ r = .error e ∧ s' = s := by
  cases r with
  | ok r => simp [settle]
  | error e' => simp [settle, eq_comm]

theorem run_bind_ofExcept (r : Except Error α) (f : α → EStateM Error σ β) (s : σ) :
    (MonadExcept.ofExcept r >>= f).run s =
      match r with
      | .ok a => (f a).run s
      | .error e => .error e s := by
  cases r <;> rfl

variable {x : EStateM Error σ α} {s s' : σ}

/-- A program gives what its run ends with. -/
theorem outcome_eq_ok_iff {a : α} : outcome x s = .ok (a, s') ↔ x.run s = .ok a s' := by
  rw [outcome]
  cases x.run s <;> simp

/-- What a program gives that changes nothing when it fails. -/
theorem outcome_of_settle {r : Except Error (α × σ)} (h : x.run s = settle s r) :
    outcome x s = r := by
  rw [outcome, h]
  rcases r with e | ⟨a, s'⟩ <;> rfl

/-- Where such a program ends. -/
theorem finalState_of_settle {r : Except Error (α × σ)} (h : x.run s = settle s r) :
    finalState x s = ((r.toOption.map Prod.snd).getD s) := by
  rw [finalState, h]
  rcases r with e | ⟨a, s'⟩ <;> rfl

end RowIndex
