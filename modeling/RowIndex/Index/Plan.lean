import RowIndex.Index.Term

/-!
# Index/Plan — what the inverted index asks its engine

A query becomes a `Plan` of terms, ranges of terms and clauses: its fields must be declared, its
values of their fields' kinds, and its texts are taken apart by the fields' own analyzers.
-/

namespace RowIndex

/-- What the engine is asked. -/
inductive Plan where
  /-- Every document. -/
  | all
  /-- Documents with a term of a field. -/
  | term (field : BoundField) (t : IndexTerm)
  /-- Documents with a term of a field between two bounds. -/
  | range (field : BoundField) (lower upper : Bound IndexTerm)
  /-- Documents that match every `must` clause and no `mustNot` clause, and some `should` clause
  if there is no `must` clause. -/
  | clauses (must should mustNot : List Plan)
  /-- The same documents with their score multiplied. -/
  | boost (plan : Plan) (factor : Single)
  /-- The same documents with one score for all. -/
  | constant (plan : Plan) (score : Single)

namespace Plan

/-- Documents that share a token of a text with a field. -/
def matching (f : BoundField) (text : String) : Except Error Plan :=
  match f.layout.form.tokens? with
  | none => .error (.notAnalyzed f.layout.name)
  | some tokens =>
    let distinct : NameSet := .ofList (tokens text)
    .ok (clauses [] (distinct.entries.map fun token => term f (.text (Hex.utf8 token))) [])

mutual

/-- The plan of a query. -/
def ofQuery (b : Bindings) : Query → Except Error Plan
  | .all => .ok all
  | .term field value => do
    let f ← b.require field
    if f.kind = .text then matching f value.display
    else do
      let t ← f.term value
      return term f t
  | .range field lower upper => do
    let f ← b.require field
    let low ← f.bound lower
    let high ← f.bound upper
    return if low.bothOpen high then all else range f low high
  | .matching field text => do
    let f ← b.require field
    matching f text
  | .boolean must should mustNot => do
    let must ← ofQueries b must
    let should ← ofQueries b should
    let mustNot ← ofQueries b mustNot
    return clauses must should mustNot
  | .boost query factor => do
    let plan ← ofQuery b query
    return boost plan factor

/-- The plans of a list of queries. -/
def ofQueries (b : Bindings) : List Query → Except Error (List Plan)
  | [] => .ok []
  | query :: rest => do
    let plan ← ofQuery b query
    let plans ← ofQueries b rest
    return plan :: plans

end

/-- The plan of a search: a filter is one more condition, which adds nothing to the score. -/
def ofSearch (b : Bindings) (s : Search) : Except Error Plan := do
  let plan ← ofQuery b s.query
  match s.filter with
  | none => return plan
  | some filter => do
    let condition ← ofQuery b filter
    return clauses [plan, constant condition (Binary.zero false)] [] []

end Plan

end RowIndex
