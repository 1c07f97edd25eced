/-!
# Text/CodePointSet — character classes as ascending ranges of code points

A character class of the Unicode database is a table of disjoint ranges.  `contains` looks a
character up by halving the table, so that a class of several hundred ranges is decided in about
ten comparisons.
-/

namespace RowIndex

/-- A set of code points: disjoint closed ranges in ascending order. -/
structure CodePointSet where
  /-- First and last code point of each range. -/
  ranges : Array (Nat × Nat)

namespace CodePointSet

/-- Whether one of the ranges with index in `[low, high)` holds `code`; `fuel` bounds the number of
halvings. -/
def search (set : CodePointSet) (code : Nat) : (fuel low high : Nat) → Bool
  | 0, _, _ => false
  | fuel + 1, low, high =>
    if low < high then
      let middle := (low + high) / 2
      match set.ranges[middle]? with
      | none => false
      | some (first, last) =>
        if code < first then set.search code fuel low middle
        else if last < code then set.search code fuel (middle + 1) high
        else true
    else false

/-- Whether `c` belongs to the set. -/
def contains (set : CodePointSet) (c : Char) : Bool :=
  set.search c.toNat set.ranges.size 0 set.ranges.size

end CodePointSet

end RowIndex
