import Mathlib.Data.List.DropRight
import Mathlib.Data.List.Induction
import RowIndex.Index.Scan
import RowIndex.Proofs.Outcomes
import RowIndex.Proofs.Programs

/-!
# Proofs/Index/Changes — changes to an index

An index is changed in place, and a change that fails may leave the index changed all the same
(`SearchIndex.attempt`).  The scanned index checks before it changes anything, so there a change is
made or the index is left alone (`ScanIndex.run_perform`).
-/

namespace RowIndex

/-- A change to an index. -/
inductive Change where
  /-- Replace the documents that a term identifies. -/
  | upsert (t : Term) (d : Document)
  /-- Remove the documents that a term identifies. -/
  | delete (t : Term)
  /-- Make all changes visible. -/
  | commit

namespace Change

/-- Whether a change makes all changes visible. -/
def isCommit : Change → Bool
  | commit => true
  | _ => false

/-- The changes that searches see: all of them if every change is committed at once, otherwise those
up to the last commit. -/
def published (autoCommit : Bool) (changes : List Change) : List Change :=
  if autoCommit then changes else changes.rdropWhile (!·.isCommit)

/-- One more change shows all, or nothing more. -/
theorem published_append_singleton (autoCommit : Bool) (changes : List Change) (c : Change) :
    published autoCommit (changes ++ [c]) =
      if autoCommit || c.isCommit then changes ++ [c] else published autoCommit changes := by
  rw [published, published, List.rdropWhile_concat]
  cases autoCommit <;> cases c.isCommit <;> rfl

end Change

namespace SearchIndex

variable {ι : Type} [SearchIndex ι]

/-- A change in place. -/
def perform : Change → EStateM Error ι Unit
  | .upsert t d => upsert t d
  | .delete t => delete t
  | .commit => commit

/-- The index after a change, if that succeeds. -/
def change (ix : ι) (c : Change) : Except Error ι := (outcome (perform c) ix).map Prod.snd

/-- The index after a list of changes, all of which succeed. -/
def changeAll (ix : ι) (changes : List Change) : Except Error ι := changes.foldlM change ix

/-- The index after a change, whether that succeeds or fails. -/
def attempt (ix : ι) (c : Change) : ι := finalState (perform c) ix

/-- The index after a list of changes. -/
def attempts (ix : ι) (changes : List Change) : ι := changes.foldl attempt ix

/-- Whether a change succeeds. -/
def accepts (ix : ι) (c : Change) : Bool := (outcome (perform c) ix).isOk

/-- Those of a list of changes that succeed, attempted one after another. -/
def accepted (ix : ι) : List Change → List Change
  | [] => []
  | c :: rest =>
    if accepts ix c then c :: accepted (attempt ix c) rest else accepted (attempt ix c) rest

theorem change_eq_ok_iff {ix ix' : ι} {c : Change} :
    change ix c = .ok ix' ↔ (perform c).run ix = .ok () ix' := by
  rw [change, map_eq_ok_iff, ← outcome_eq_ok_iff]
  exact ⟨fun ⟨r, h, hr⟩ => hr ▸ h, fun h => ⟨_, h, rfl⟩⟩

theorem changeAll_cons {ix ix' : ι} {c : Change} {rest : List Change} :
    changeAll ix (c :: rest) = .ok ix' ↔
      ∃ ix₁, change ix c = .ok ix₁ ∧ changeAll ix₁ rest = .ok ix' := by
  rw [changeAll, List.foldlM_cons, bind_eq_ok_iff]
  rfl

theorem changeAll_append_singleton (ix : ι) (changes : List Change) (c : Change) :
    changeAll ix (changes ++ [c]) = changeAll ix changes >>= fun ix => change ix c := by
  simp only [changeAll, List.foldlM_append, List.foldlM_cons, List.foldlM_nil, bind_pure]

theorem attempts_append_singleton (ix : ι) (changes : List Change) (c : Change) :
    attempts ix (changes ++ [c]) = attempt (attempts ix changes) c := List.foldl_append

theorem accepted_append_singleton (ix : ι) (changes : List Change) (c : Change) :
    accepted ix (changes ++ [c]) =
      accepted ix changes ++ if accepts (attempts ix changes) c then [c] else [] := by
  induction changes generalizing ix with
  | nil =>
    rw [List.nil_append, accepted, accepted, attempts, List.foldl_nil]
    rfl
  | cons a rest ih =>
    rw [List.cons_append, accepted, accepted, ih]
    split <;> rfl

end SearchIndex

open SearchIndex

/-! ## The scanned index -/

namespace ScanIndex

/-- **Documents are replaced or left alone**: the step that can fail is the first. -/
theorem run_upsert (ix : ScanIndex) (t : Term) (d : Document) :
    (SearchIndex.upsert t d).run ix = settle ix ((ix.declared.check d).map fun _ =>
      ((), { ix with documents := ix.without t ++ [d] })) := by
  change (upsertInPlace t d).run ix = _
  rw [upsertInPlace, EStateM.run_bind, EStateM.run_get]
  simp only [run_bind_ofExcept]
  cases ix.declared.check d <;> rfl

theorem run_delete (ix : ScanIndex) (t : Term) :
    (SearchIndex.delete t).run ix = .ok () (ix.delete t) := rfl

theorem change_upsert (ix : ScanIndex) (t : Term) (d : Document) :
    change ix (.upsert t d) =
      (ix.declared.check d).map fun _ => { ix with documents := ix.without t ++ [d] } := by
  rw [change, perform, outcome_of_settle (ix.run_upsert t d)]
  cases ix.declared.check d <;> rfl

theorem change_delete (ix : ScanIndex) (t : Term) : change ix (.delete t) = .ok (ix.delete t) := rfl

theorem change_commit (ix : ScanIndex) : change ix .commit = .ok ix := rfl

/-- **A change is made, or the index is left alone.** -/
theorem run_perform (ix : ScanIndex) (c : Change) :
    (perform c).run ix = settle ix ((change ix c).map ((), ·)) := by
  cases c with
  | upsert t d =>
    rw [perform, run_upsert, change_upsert]
    cases ix.declared.check d <;> rfl
  | delete t => rfl
  | commit => rfl

theorem attempt_eq_getD (ix : ScanIndex) (c : Change) :
    attempt ix c = (change ix c).toOption.getD ix := by
  rw [attempt, finalState_of_settle (ix.run_perform c)]
  cases change ix c <;> rfl

/-- A change leaves the declarations alone. -/
theorem declared_of_change {ix ix' : ScanIndex} {c : Change} (h : change ix c = .ok ix') :
    ix'.declared = ix.declared := by
  cases c with
  | upsert t d =>
    rw [change_upsert] at h
    obtain ⟨_, -, rfl⟩ := map_eq_ok_iff.mp h
    rfl
  | delete t => exact Except.ok.inj h ▸ rfl
  | commit => exact Except.ok.inj h ▸ rfl

/-- Changes leave the declarations alone. -/
theorem declared_of_changeAll {ix ix' : ScanIndex} {changes : List Change}
    (h : changeAll ix changes = .ok ix') : ix'.declared = ix.declared := by
  induction changes generalizing ix with
  | nil => exact Except.ok.inj h ▸ rfl
  | cons c rest ih =>
    obtain ⟨ix₁, hc, hrest⟩ := changeAll_cons.mp h
    exact (ih hrest).trans (declared_of_change hc)

end ScanIndex

end RowIndex
