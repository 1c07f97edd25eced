import RowIndex.Document

/-!
# SortOrder — the order of hits

Hits are compared by one criterion after another and, if all tie, by their score, the highest first.
Hits without a value for a criterion come after those with one, whichever way it is turned.
-/

namespace RowIndex

/-- A field to order by. -/
structure Criterion where
  /-- The field. -/
  field : String
  /-- Whether the greatest value comes first. -/
  reverse : Bool := false
  deriving DecidableEq, Repr

/-- The order of two documents by one criterion; values of different kinds tie. -/
def Criterion.order (c : Criterion) (a b : Document) : Ordering :=
  match a.first? c.field, b.first? c.field with
  | none, none => .eq
  | none, some _ => .gt
  | some _, none => .lt
  | some l, some r =>
    let o := (l.compare? r).getD .eq
    if c.reverse then o.swap else o

/-- An order of hits; without criteria it is the order of their scores. -/
structure SortOrder where
  /-- The criteria, the most important first. -/
  criteria : List Criterion := []
  deriving DecidableEq, Repr

namespace SortOrder

/-- The fields that are ordered by. -/
def fields (s : SortOrder) : List String := s.criteria.map Criterion.field

/-- The order of two hits. -/
def order (s : SortOrder) (a b : Hit) : Ordering :=
  s.criteria.foldr (fun c rest => (c.order a.document b.document).then rest)
    (compare b.score a.score)

/-- The hits of a list in order; equal ones keep their places. -/
def sort (s : SortOrder) (hits : List Hit) : List Hit :=
  hits.mergeSort fun a b => (s.order a b).isLE

end SortOrder

end RowIndex
