import RowIndex.NameMap.Search
import RowIndex.Token
import RowIndex.Value

/-!
# Row — cells, mutations, and rows of live cells

A cell is a value, or its deletion (a tombstone), written to a column at a time.  A `Mutation`
writes cells and may delete the whole partition up to a time.  A `Row` is what is left of a
partition: at most one cell per name, in name order, none of them a tombstone.

`Row.ofCells` reconciles any list of cells.  They are sorted by name, the latest of a name first;
the first cell of each name stays, so that of several the latest wins, the earliest in the list
among equally late ones; and only then are tombstones dropped.  In a row, a cell is looked up and
put in at the position of its name, which is found by halving.
-/

namespace RowIndex

/-- A cell: a value written to a column, or a tombstone. -/
structure Cell where
  /-- The column's name. -/
  name : String
  /-- The value; none for a tombstone. -/
  value : Option Value
  /-- When it was written. -/
  timestamp : Int64
  deriving DecidableEq

namespace Cell

instance : Named Cell := ⟨Cell.name⟩

/-- Whether the cell holds a value. -/
def isLive (c : Cell) : Bool := c.value.isSome

/-- The order in which a row takes up cells: by name, and of cells with one name the latest
first. -/
def order (a b : Cell) : Ordering :=
  (compare a.name b.name).then (compare b.timestamp a.timestamp)

instance : Std.TransCmp order :=
  inferInstanceAs (Std.TransCmp
    (compareLex (compareOn name) fun a b => compareOn timestamp b a))

theorem isLE_order_of_not {a b : Cell} (h : ¬(a.order b).isLE = true) :
    (b.order a).isLE = true := by
  have hswap : b.order a = (a.order b).swap := Std.OrientedCmp.eq_swap
  rw [hswap]
  revert h
  cases a.order b <;> decide

theorem name_le_of_isLE_order {a b : Cell} (h : (a.order b).isLE = true) : a.name ≤ b.name :=
  (isLE_compareOfLessAndEq String.le_antisymm String.not_le String.le_total).mp
    (Ordering.isLE_then_iff_and.mp h).1

/-- Put a cell into a sorted list, before those that it ties with. -/
def insert (c : Cell) : List Cell → List Cell
  | [] => [c]
  | d :: rest => if (c.order d).isLE then c :: d :: rest else d :: c.insert rest

theorem mem_of_mem_insert {c a : Cell} :
    ∀ {list : List Cell}, a ∈ c.insert list → a = c ∨ a ∈ list
  | [], h => Or.inl (List.mem_singleton.mp h)
  | d :: rest, h => by
    rw [insert] at h
    split at h
    · exact List.mem_cons.mp h
    · rcases List.mem_cons.mp h with rfl | h
      · exact Or.inr List.mem_cons_self
      · exact (mem_of_mem_insert h).imp id (List.mem_cons_of_mem _)

/-- Inserting a cell keeps a list sorted. -/
theorem pairwise_insert (c : Cell) :
    ∀ {list : List Cell}, list.Pairwise (fun a b => (a.order b).isLE = true) →
      (c.insert list).Pairwise fun a b => (a.order b).isLE = true
  | [], _ => List.pairwise_singleton _ _
  | d :: rest, h => by
    obtain ⟨hd, hrest⟩ := List.pairwise_cons.mp h
    rw [insert]
    split
    · rename_i hcd
      refine List.pairwise_cons.mpr ⟨fun b hb => ?_, h⟩
      rcases List.mem_cons.mp hb with rfl | hb
      · exact hcd
      · exact Std.TransCmp.isLE_trans hcd (hd b hb)
    · rename_i hcd
      refine List.pairwise_cons.mpr ⟨fun b hb => ?_, pairwise_insert c hrest⟩
      rcases mem_of_mem_insert hb with rfl | hb
      · exact isLE_order_of_not hcd
      · exact hd b hb

end Cell

/-- The deletion of everything that was written to a partition at or before a time. -/
structure Deletion where
  /-- The latest time that is covered. -/
  markedAt : Int64
  deriving DecidableEq

/-- Whether the deletion covers what was written at `timestamp`. -/
def Deletion.shadows (d : Deletion) (timestamp : Int64) : Bool := timestamp ≤ d.markedAt

/-- A change to a partition. -/
structure Mutation where
  /-- The deletion of the partition, if any. -/
  deletion : Option Deletion := none
  /-- The written cells, tombstones among them. -/
  cells : List Cell := []
  deriving DecidableEq

namespace Mutation

/-- Whether the mutation deletes anything. -/
def isDeletion (m : Mutation) : Bool := m.deletion.isSome || m.cells.any (!·.isLive)

/-- The written cells that hold a value. -/
def liveCells (m : Mutation) : List Cell := m.cells.filter Cell.isLive

end Mutation

/-- The live cells of a partition, at most one per name, in name order. -/
structure Row where
  /-- The partition key. -/
  key : Key
  /-- The cells. -/
  cells : NameMap Cell
  live : ∀ c ∈ cells.entries, c.isLive = true

namespace Row

theorem ext {r s : Row} (hk : r.key = s.key) (hc : r.cells = s.cells) : r = s := by
  cases r; cases s; cases hk; cases hc; rfl

instance : DecidableEq Row := fun r s =>
  decidable_of_iff (r.key = s.key ∧ r.cells = s.cells)
    ⟨fun h => ext h.1 h.2, fun h => h ▸ ⟨rfl, rfl⟩⟩

/-- Cells in the order in which a row takes them up; those that tie keep their places. -/
def sort (cells : List Cell) : List Cell := cells.foldr Cell.insert []

theorem pairwise_sort (cells : List Cell) :
    (sort cells).Pairwise fun a b => (a.order b).isLE = true := by
  induction cells with
  | nil => exact .nil
  | cons c rest ih => exact c.pairwise_insert ih

/-- The cells that win among a list of cells: the first of each name when they are sorted. -/
def winners (cells : List Cell) : NameMap Cell :=
  .ofSorted (sort cells) ((pairwise_sort cells).imp Cell.name_le_of_isLE_order)

/-- The row whose cells are the live ones of a map. -/
def ofMap (key : Key) (cells : NameMap Cell) : Row where
  key := key
  cells := cells.filter Cell.isLive
  live _ h := (List.mem_filter.mp h).2

/-- The row that a list of cells amounts to. -/
def ofCells (key : Key) (cells : List Cell) : Row := ofMap key (winners cells)

/-- Whether the row has no cells. -/
def isEmpty (r : Row) : Bool := r.cells.isEmpty

/-- The cell of a given name. -/
def cell? (r : Row) (name : String) : Option Cell := r.cells.search? name

/-- The value of the cell of a given name. -/
def value? (r : Row) (name : String) : Option Value := (r.cell? name).bind Cell.value

/-- The row with a cell put in place of any of the same name; a tombstone removes it. -/
def withCell (r : Row) (c : Cell) : Row := ofMap r.key (r.cells.insert c)

end Row

/-- The definition of a table column. -/
structure Column where
  /-- The column's name. -/
  name : String
  /-- The type of its values. -/
  type : CellType
  deriving DecidableEq, Repr

/-- The table that is indexed. -/
structure Table where
  /-- The table's name. -/
  name : String
  /-- Its columns. -/
  columns : List Column := []
  deriving DecidableEq, Repr

/-- The first column of a given name. -/
def Table.column? (t : Table) (name : String) : Option Column :=
  t.columns.find? (·.name == name)

end RowIndex
