import RowIndex.Proofs.Service.Run

/-!
# Proofs/Service/Atomicity — a call does all of its changes, or none

A service is changed in place, so a call that fails may leave changes behind.  Each call is a
program (`perform`); over the scanned index it ends where the call says, or fails and has changed
nothing (`run_perform`): whatever can fail is checked before the first change.  The only calls that
fail are those for a live row that has no document (`Opened.run_perform_eq_error_iff`).
-/

namespace RowIndex

namespace Service

/-! ## Calls in place -/

/-- A call in place. -/
def perform {ι : Type} [SearchIndex ι] : Call → EStateM Error (Service ι) Unit
  | .apply bytes m => modify (·.apply bytes m)
  | .purge bytes => modify (·.purge bytes)
  | .reindex bytes m time => do let _ ← reindexInPlace bytes m time
  | .reindexAll items time => modify fun s => (s.reindexAll items time).2
  | .remove key => removeInPlace key

/-! ## Programs and calls -/

theorem run_perform_reindex (s : Service ScanIndex) (bytes : Bytes) (m : Mutation) (time : Int64) :
    (perform (.reindex bytes m time)).run s =
      settle s ((s.reindex bytes m time).map fun r => ((), r.2)) := by
  rw [perform, EStateM.run_bind, run_reindexInPlace]
  cases s.reindex bytes m time <;> rfl

/-- **Calls are atomic**: performed in place, a call ends where it says, or fails and has changed
nothing. -/
theorem run_perform (s : Service ScanIndex) (c : Call) :
    (perform c).run s = .ok () (s.call c) ∨
      ∃ e, (perform c).run s = .error e s ∧ s.call c = s := by
  cases c with
  | apply bytes m => exact Or.inl rfl
  | purge bytes => exact Or.inl rfl
  | reindex bytes m time =>
    rw [run_perform_reindex, call]
    cases s.reindex bytes m time with
    | ok r => exact Or.inl rfl
    | error e => exact Or.inr ⟨e, rfl, rfl⟩
  | reindexAll items time => exact Or.inl rfl
  | remove key => exact Or.inl rfl

/-! ## What fails -/

section Failures

variable {s : Service ScanIndex}

/-- **The index refuses no document**: a row is not brought up to date only if it has none. -/
theorem Opened.reindex_eq_error_iff (hs : s.Opened) {bytes : Bytes} {m : Mutation} {time : Int64}
    {e : Error} :
    s.reindex bytes m time = .error e ↔
      ∃ r, s.store.liveRow? (s.store.place bytes) time = some r ∧ s.document r = .error e := by
  constructor
  · intro h
    cases hrow : s.store.liveRow? (s.store.place bytes) time with
    | none =>
      rw [reindex_of_gone hrow] at h
      split at h <;> contradiction
    | some r =>
      cases hd : s.document r with
      | ok d =>
        rw [reindex_of_document hs hrow hd] at h
        contradiction
      | error e' =>
        rw [reindex_of_refused hrow hd, Except.error.injEq] at h
        exact ⟨r, rfl, h ▸ hd⟩
  · rintro ⟨r, hrow, hd⟩
    exact reindex_of_refused hrow hd

/-- **The calls that fail are those for a live row without a document.** -/
theorem Opened.run_perform_eq_error_iff (hs : s.Opened) {c : Call} {e : Error}
    {s' : Service ScanIndex} :
    (perform c).run s = .error e s' ↔
      s' = s ∧ ∃ bytes m time r, c = .reindex bytes m time ∧
        s.store.liveRow? (s.store.place bytes) time = some r ∧ s.document r = .error e := by
  constructor
  · intro h
    cases c with
    | apply bytes m => contradiction
    | purge bytes => contradiction
    | reindex bytes m time =>
      rw [run_perform_reindex, settle_eq_error_iff, map_eq_error_iff, hs.reindex_eq_error_iff] at h
      obtain ⟨⟨r, hrow, hd⟩, rfl⟩ := h
      exact ⟨rfl, bytes, m, time, r, rfl, hrow, hd⟩
    | reindexAll items time => contradiction
    | remove key => contradiction
  · rintro ⟨rfl, bytes, m, time, r, rfl, hrow, hd⟩
    rw [run_perform_reindex, settle_eq_error_iff, map_eq_error_iff, hs.reindex_eq_error_iff]
    exact ⟨⟨r, hrow, hd⟩, rfl⟩

end Failures

end Service

end RowIndex
