import RowIndex.Binary.Arithmetic
import RowIndex.Document
import RowIndex.Text.Analysis

/-!
# Query — which documents are sought, and how well each matches

Queries combine exact values, ranges and tokens of text by boolean clauses and by factors on the
score.  `score` is the reference evaluation: a document that does not match has no score, exact
values and ranges score one, text scores the number of its distinct tokens found, and the scores of
clauses add up.
-/

namespace RowIndex

/-- One end of a range. -/
inductive Bound (α : Type) where
  | unbounded
  | included (a : α)
  | excluded (a : α)
  deriving DecidableEq, Repr

namespace Bound

/-- Whether neither end is given. -/
def bothOpen {α : Type} : Bound α → Bound α → Bool
  | unbounded, unbounded => true
  | _, _ => false

/-- Whether a value reaches a lower bound. -/
def admitsAbove (v : FieldValue) : Bound FieldValue → Bool
  | unbounded => true
  | included b => v.compare? b = some .gt || v.compare? b = some .eq
  | excluded b => v.compare? b = some .gt

/-- Whether a value stays within an upper bound. -/
def admitsBelow (v : FieldValue) : Bound FieldValue → Bool
  | unbounded => true
  | included b => v.compare? b = some .lt || v.compare? b = some .eq
  | excluded b => v.compare? b = some .lt

end Bound

/-- A query, or a filter. -/
inductive Query where
  /-- Every document. -/
  | all
  /-- Documents with a value equal to the given one. -/
  | term (field : String) (value : FieldValue)
  /-- Documents with a value between two bounds. -/
  | range (field : String) (lower upper : Bound FieldValue)
  /-- Documents whose text shares a token with the given text. -/
  | matching (field text : String)
  /-- Documents that match every `must` clause and no `mustNot` clause, and some `should` clause
  if there is no `must` clause. -/
  | boolean (must should mustNot : List Query)
  /-- The same documents with their score multiplied. -/
  | boost (query : Query) (factor : Single)

namespace Query

/-- Documents that match all queries. -/
def conj (queries : List Query) : Query := boolean queries [] []

/-- Documents that match some query. -/
def disj (queries : List Query) : Query := boolean [] queries []

/-- Documents that do not match a query. -/
def neg (query : Query) : Query := boolean [all] [] [query]

/-- The query with its score multiplied; a factor of one adds nothing. -/
def boosted (query : Query) (factor : Single) : Query :=
  if factor = Binary.one then query else boost query factor

/-- Whether a value lies between two bounds. -/
def within (lower upper : Bound FieldValue) (v : FieldValue) : Bool :=
  lower.admitsAbove v && upper.admitsBelow v

/-- The number of distinct tokens of `text` among the tokens of a list of values. -/
def sharedTokens (text : String) (values : List FieldValue) : Nat :=
  let present := (values.filterMap FieldValue.asString?).flatMap Text.analyze
  ((Text.analyze text).eraseDups.filter present.contains).length

/-- The score of a match that either holds or does not. -/
def scoreOf (holds : Bool) : Option Single := if holds then some Binary.one else none

mutual

/-- The score of a document, none if it does not match. -/
def score (d : Document) : Query → Option Single
  | all => some Binary.one
  | term field value => scoreOf ((d.values field).any fun v => v.compare? value = some .eq)
  | range field lower upper => scoreOf ((d.values field).any (within lower upper))
  | matching field text =>
    let shared := sharedTokens text (d.values field)
    if 0 < shared then some (Binary.ofInt shared) else none
  | boolean must should mustNot =>
    if someMatch d mustNot then none
    else
      match addAll d (Binary.zero false) must with
      | none => none
      | some total => if must.isEmpty && !someMatch d should then none else addSome d total should
  | boost query factor => (score d query).map (· * factor)

/-- Whether some query of a list matches. -/
def someMatch (d : Document) : List Query → Bool
  | [] => false
  | q :: rest => (score d q).isSome || someMatch d rest

/-- `total` and the scores of all queries of a list, none unless all match. -/
def addAll (d : Document) (total : Single) : List Query → Option Single
  | [] => some total
  | q :: rest =>
    match score d q with
    | none => none
    | some s => addAll d (total + s) rest

/-- `total` and the scores of those queries of a list that match. -/
def addSome (d : Document) (total : Single) : List Query → Option Single
  | [] => some total
  | q :: rest =>
    match score d q with
    | none => addSome d total rest
    | some s => addSome d (total + s) rest

end

end Query

end RowIndex
