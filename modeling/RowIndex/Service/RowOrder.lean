import RowIndex.Decimal.Numeral
import RowIndex.Row

/-!
# Service/RowOrder — the order of found rows

Rows of several searches are merged by token or by score.  The score of a row is the text of its
score column, read as a number; rows without a readable score come last, and rows of one score are
in token order.
-/

namespace RowIndex.Row

/-- The order of rows by key. -/
def tokenOrder (a b : Row) : Ordering := compare a.key b.key

/-- The score that a row carries in a column. -/
def score? (r : Row) (column : String) : Option Single :=
  ((r.value? column).bind Value.asText?).bind Binary.ofText?

/-- The order of rows by the score in a column, the highest first. -/
def scoreOrder (column : String) (a b : Row) : Ordering :=
  let byScore : Ordering :=
    match a.score? column, b.score? column with
    | some x, some y => compare y x
    | some _, none => .lt
    | none, some _ => .gt
    | none, none => .eq
  byScore.then (a.tokenOrder b)

end RowIndex.Row
