import RowIndex.Powers

/-!
# Index/Settings — how an index is kept

Which index is used, where it lives, and when changes become visible.
-/

namespace RowIndex

/-- The settings of an index. -/
structure Settings where
  /-- The name of the index to use. -/
  backend : String := "tantivy"
  /-- The directory of the index; none keeps it in memory. -/
  path : Option String := none
  /-- The memory that a writer may use, in mebibytes. -/
  ramBufferMb : UInt64 := 64
  /-- Whether every change becomes visible at once. -/
  autoCommit : Bool := true
  deriving DecidableEq, Repr

/-- The memory that a writer may use, in bytes, at most the greatest word. -/
def Settings.ramBufferBytes (s : Settings) : Nat :=
  min (s.ramBufferMb.toNat * 2 ^ 20) (2 ^ 64 - 1)

end RowIndex
