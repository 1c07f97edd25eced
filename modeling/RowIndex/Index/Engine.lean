import RowIndex.Index.Plan

/-!
# Index/Engine — the engine of the inverted index, and what is assumed of it

The engine holds documents, finds those that a plan asks for, puts them in an order, and takes
changes in.  It enters as a parameter: an `Engine` is given by its operations, and the laws among
the fields are all that is assumed of them.

* A text of more than `IndexTerm.maxLength` bytes is no term, so its document is not found by it,
  and is not removed by it either (`selects_term`, `WriterOp.apply`).  What a range or an order
  makes of a document with such a text is left open (`selects_range`, `fastOrder_of_tokens`).
* Relevance is the engine's own affair; nothing is assumed of it.
* Operations of one writer take effect at a commit, in the order in which the writer was told of
  them (`replay_nil`, `replay_concat`).  A writer that is closed before leaves nothing of them
  behind (`Archive`).
* Additions, commits and reloads can fail at any time, with any cause (`fault`).  A call that fails
  changes nothing; what was told before stays told.  Where a statement needs that such calls
  succeed, it says so (`TakesIn`, `Publishes`).
-/

namespace RowIndex

/-! ## Changes -/

/-- A change that the writer of an index is told of. -/
inductive WriterOp where
  /-- Remove the documents with a term of a field, among those that were added before. -/
  | deleteTerm (field : BoundField) (t : IndexTerm)
  /-- Add a document. -/
  | addDocument (d : Document)

/-- The documents after a change. -/
def WriterOp.apply (documents : List Document) : WriterOp → List Document
  | deleteTerm f t => documents.filter fun d => !(f.terms d).contains t
  | addDocument d => documents ++ [d]

/-- A call of the engine that can fail. -/
inductive EngineCall where
  /-- Tell the writer of a document to add. -/
  | add (d : Document)
  /-- Commit what the writer was told. -/
  | commit
  /-- Let searches see what is committed. -/
  | reload

/-- The error of a call that failed. -/
def EngineCall.failure (cause : String) : EngineCall → Error
  | add _ => .documentNotAdded cause
  | commit => .commitFailed cause
  | reload => .reloadFailed cause

/-! ## Engines -/

/-- An engine, by its operations and their laws. -/
structure Engine where
  /-- Whether a document matches a plan. -/
  selects : Plan → Document → Bool
  /-- The order of two documents by a field, from the greatest value if it is reversed, as the
  engine knows it without loading them. -/
  fastOrder : BoundField → Bool → Document → Document → Ordering
  /-- The relevance of a document for a plan, among all documents that searches see. -/
  relevance : List Document → Plan → Document → Single
  /-- The documents in the order in which they are held, which settles ties. -/
  arrange : List Document → List Document
  /-- The documents after a commit, from those before and all that the writer was told since. -/
  replay : List Document → List WriterOp → List Document
  /-- Why a call fails, if it does, by the number of calls before it. -/
  fault : Nat → EngineCall → Option String
  /-- Every document is found. -/
  selects_all (d : Document) : selects .all d = true
  /-- A term finds the documents that have it. -/
  selects_term (f : BoundField) (t : IndexTerm) (d : Document) :
    selects (.term f t) d = (f.terms d).contains t
  /-- A range finds the documents that have a term in it; if the field has tokens that are no terms,
  this is not said. -/
  selects_range (f : BoundField) (low high : Bound IndexTerm) (d : Document) :
    (∀ t ∈ f.tokens d, t.fits = true) →
      selects (.range f low high) d = (f.terms d).any fun t => t.isAbove low && t.isBelow high
  /-- Clauses are combined. -/
  selects_clauses (must should mustNot : List Plan) (d : Document) :
    selects (.clauses must should mustNot) d =
      (!mustNot.any (selects · d) && must.all (selects · d) &&
        (!must.isEmpty || should.any (selects · d)))
  /-- A factor has no part in what is found. -/
  selects_boost (plan : Plan) (factor : Single) (d : Document) :
    selects (.boost plan factor) d = selects plan d
  /-- Nor has a constant score. -/
  selects_constant (plan : Plan) (score : Single) (d : Document) :
    selects (.constant plan score) d = selects plan d
  /-- Documents with one term each are in the order of their terms. -/
  fastOrder_of_tokens (f : BoundField) (reverse : Bool) (a b : Document) (v w : IndexTerm) :
    f.tokens a = [v] → f.tokens b = [w] → v.fits = true → w.fits = true →
      fastOrder f reverse a b = if reverse then w.order v else v.order w
  /-- No document is lost or doubled by the order. -/
  arrange_perm (documents : List Document) : (arrange documents).Perm documents
  /-- A commit without changes changes nothing. -/
  replay_nil (documents : List Document) : replay documents [] = documents
  /-- Changes are applied in the order in which the writer was told of them. -/
  replay_concat (documents : List Document) (ops : List WriterOp) (op : WriterOp) :
    replay documents (ops ++ [op]) = op.apply (replay documents ops)

namespace Engine

/-- The engine takes every document in. -/
def TakesIn (engine : Engine) : Prop := ∀ n d, engine.fault n (.add d) = none

/-- What the engine commits is seen by searches. -/
def Reloads (engine : Engine) : Prop := ∀ n, engine.fault n .reload = none

/-- The engine commits whenever it is asked to, and searches see it. -/
def Publishes (engine : Engine) : Prop := (∀ n, engine.fault n .commit = none) ∧ engine.Reloads

end Engine

/-! ## A plain engine -/

namespace Plan

mutual

/-- Whether a document matches, by the terms of its fields. -/
def holds (d : Document) : Plan → Bool
  | all => true
  | term f t => (f.terms d).contains t
  | range f low high => (f.terms d).any fun t => t.isAbove low && t.isBelow high
  | clauses must should mustNot =>
    !someHold d mustNot && allHold d must && (!must.isEmpty || someHold d should)
  | boost plan _ => holds d plan
  | constant plan _ => holds d plan

/-- Whether a document matches some plan of a list. -/
def someHold (d : Document) : List Plan → Bool
  | [] => false
  | plan :: rest => holds d plan || someHold d rest

/-- Whether a document matches all plans of a list. -/
def allHold (d : Document) : List Plan → Bool
  | [] => true
  | plan :: rest => holds d plan && allHold d rest

end

theorem someHold_eq (d : Document) (plans : List Plan) :
    someHold d plans = plans.any (holds d) := by
  induction plans with
  | nil => rw [someHold]; rfl
  | cons plan rest ih => rw [someHold, ih, List.any_cons]

theorem allHold_eq (d : Document) (plans : List Plan) : allHold d plans = plans.all (holds d) := by
  induction plans with
  | nil => rw [allHold]; rfl
  | cons plan rest ih => rw [allHold, ih, List.all_cons]

end Plan

/-- The order of two documents by their first tokens in a field; those without one come last. -/
def BoundField.order (f : BoundField) (reverse : Bool) (a b : Document) : Ordering :=
  match (f.tokens a).head?, (f.tokens b).head? with
  | none, none => .eq
  | none, some _ => .gt
  | some _, none => .lt
  | some v, some w => if reverse then w.order v else v.order w

/-- An engine that never fails, and to which all documents are alike. -/
def Engine.plain : Engine where
  selects plan d := plan.holds d
  fastOrder f reverse := f.order reverse
  relevance _ _ _ := Binary.zero false
  arrange documents := documents
  replay documents ops := ops.foldl WriterOp.apply documents
  fault _ _ := none
  selects_all d := by rw [Plan.holds]
  selects_term f t d := by rw [Plan.holds]
  selects_range f low high d _ := by rw [Plan.holds]
  selects_clauses must should mustNot d := by
    rw [Plan.holds, Plan.someHold_eq, Plan.someHold_eq, Plan.allHold_eq]
  selects_boost plan factor d := by rw [Plan.holds]
  selects_constant plan score d := by rw [Plan.holds]
  fastOrder_of_tokens f reverse a b v w ha hb _ _ := by rw [BoundField.order, ha, hb]; rfl
  arrange_perm documents := .refl documents
  replay_nil _ := rfl
  replay_concat _ _ _ := List.foldl_append

/-- The plain engine takes every document in. -/
theorem Engine.takesIn_plain : plain.TakesIn := fun _ _ => rfl

/-- The plain engine publishes what it is told. -/
theorem Engine.publishes_plain : plain.Publishes := ⟨fun _ => rfl, fun _ => rfl⟩

/-! ## Archives -/

/-- What stays of an index on disk after it is closed. -/
structure Archive where
  /-- The layout. -/
  layout : Layout
  /-- The committed documents. -/
  documents : List Document

end RowIndex
