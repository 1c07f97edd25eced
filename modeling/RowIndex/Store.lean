import RowIndex.Row

/-!
# Store — a store of rows in which the last write wins

A partition keeps its latest deletion and, per column, the latest cell that the deletion does not
cover.  Mutations may arrive in any order: an old one neither revives what a newer deletion covers
nor replaces a newer cell; of two cells written at one time the one that arrives last stays.
Reading at a time leaves out cells written after it.
-/

namespace RowIndex

/-- What is kept of one partition. -/
structure Partition where
  /-- The latest deletion. -/
  deletion : Option Deletion := none
  /-- The latest cell of each column, tombstones among them. -/
  cells : NameMap Cell := .empty
  deriving DecidableEq

namespace Partition

/-- Whether the partition's deletion covers a time. -/
def shadows (p : Partition) (timestamp : Int64) : Bool :=
  p.deletion.any (·.shadows timestamp)

/-- Delete everything up to a time; the later of two deletions stays. -/
def delete (p : Partition) (d : Deletion) : Partition where
  deletion := if p.deletion.all (·.markedAt < d.markedAt) then some d else p.deletion
  cells := p.cells.filter fun c => !d.shadows c.timestamp

/-- Write a cell, unless it is covered or a later cell is present. -/
def write (p : Partition) (c : Cell) : Partition :=
  if p.shadows c.timestamp then p
  else { p with cells := p.cells.putIf (fun old => old.timestamp ≤ c.timestamp) c }

/-- Apply a mutation: its deletion first, then its cells in order. -/
def apply (p : Partition) (m : Mutation) : Partition :=
  m.cells.foldl write (m.deletion.elim p p.delete)

/-- The row as of a time. -/
def read (p : Partition) (key : Key) (time : Int64) : Row :=
  Row.ofMap key (p.cells.filter (·.timestamp ≤ time))

end Partition

/-- A store of partitions. -/
structure Store where
  /-- How keys are placed. -/
  partitioner : Partitioner
  /-- The partitions that were ever written, by key. -/
  partitions : List (Key × Partition) := []
  deriving DecidableEq

namespace Store

/-- A partition key with its token. -/
def place (s : Store) (bytes : Bytes) : Key := s.partitioner.place bytes

/-- The partition of a key. -/
def partition? (s : Store) (key : Key) : Option Partition := s.partitions.lookup key

/-- Replace the value of a key in a list of pairs, or add it at the end. -/
def assign (key : Key) (p : Partition) : List (Key × Partition) → List (Key × Partition)
  | [] => [(key, p)]
  | (k, q) :: rest => if k = key then (key, p) :: rest else (k, q) :: assign key p rest

/-- Apply a mutation to the partition of a key. -/
def apply (s : Store) (bytes : Bytes) (m : Mutation) : Store :=
  let key := s.place bytes
  { s with partitions := assign key (((s.partition? key).getD {}).apply m) s.partitions }

/-- Drop a partition as if it had never been written. -/
def purge (s : Store) (bytes : Bytes) : Store :=
  { s with partitions := s.partitions.filter (·.1 != s.place bytes) }

/-- Whether a partition was ever written. -/
def contains (s : Store) (bytes : Bytes) : Bool := (s.partition? (s.place bytes)).isSome

/-- The row of a key as of a time; none if the partition was never written. -/
def read (s : Store) (key : Key) (time : Int64) : Option Row :=
  (s.partition? key).map (·.read key time)

/-- The number of partitions that were ever written. -/
def size (s : Store) : Nat := s.partitions.length

end Store

end RowIndex
