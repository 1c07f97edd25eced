import RowIndex.Token

/-!
# TokenRange — intervals of tokens

A missing bound leaves its side of a range open, and so does a bound that is its partitioner's
sentinel: the sentinel is no token of a row.  Ranges that wrap around the ring are split by the
caller.
-/

namespace RowIndex

/-- An interval of tokens. -/
structure TokenRange where
  /-- The lower bound. -/
  lower : Option Token := none
  /-- The upper bound. -/
  upper : Option Token := none
  /-- Whether the lower bound belongs to the range. -/
  includeLower : Bool := true
  /-- Whether the upper bound belongs to the range. -/
  includeUpper : Bool := true
  deriving DecidableEq

namespace TokenRange

/-- Every token. -/
def all : TokenRange := {}

/-- Both bounds and everything between them. -/
def between (lower upper : Token) : TokenRange := { lower := some lower, upper := some upper }

/-- Everything above the lower bound up to the upper one: a slice of the ring. -/
def leftOpen (lower upper : Token) : TokenRange :=
  { lower := some lower, upper := some upper, includeLower := false }

/-- A bound, unless it is a sentinel. -/
def proper (bound : Option Token) : Option Token := bound.filter (!·.isMinimum)

/-- Whether a token lies in the range. -/
def contains (r : TokenRange) (t : Token) : Bool :=
  (match proper r.lower with
    | none => true
    | some low => if r.includeLower then (compare t low).isGE else (compare t low).isGT) &&
  (match proper r.upper with
    | none => true
    | some high => if r.includeUpper then (compare t high).isLE else (compare t high).isLT)

end TokenRange

end RowIndex
