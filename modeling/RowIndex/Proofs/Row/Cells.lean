import RowIndex.Row

/-!
# Proofs/Row/Cells — a row is a map from names to live cells

Cells are looked up and put in by the position of their name, which halving finds only among cells
in strictly ascending name order.  Every row keeps them so, and keeps live ones alone: look-up finds
exactly the cells that are there (`cell?_eq_some_iff`), a cell that is put in is found under its
name if it is live, and under no other name anything changes (`cell?_withCell`).  So after any
number of cells were put in, a name has the last of them (`cell?_foldl_withCell`).
-/

namespace RowIndex.Row

/-- The position of a name leads to the cell of the name. -/
theorem cell?_eq_find? (r : Row) (name : String) : r.cell? name = r.cells.find? name :=
  r.cells.search?_eq_find? name

/-- **Look-up finds exactly the cells of the row.** -/
theorem cell?_eq_some_iff {r : Row} {name : String} {c : Cell} :
    r.cell? name = some c ↔ c ∈ r.cells.entries ∧ c.name = name := by
  rw [cell?_eq_find?]
  exact NameMap.find?_eq_some_iff

/-- A row made from a map of cells has the live ones. -/
theorem cell?_ofMap (key : Key) (cells : NameMap Cell) (name : String) :
    (ofMap key cells).cell? name = (cells.find? name).filter Cell.isLive := by
  rw [cell?_eq_find?]
  exact NameMap.find?_filter cells Cell.isLive name

/-- A cell that is found is live. -/
theorem isLive_of_cell? {r : Row} {name : String} {c : Cell} (h : r.cell? name = some c) :
    c.isLive = true :=
  r.live c (cell?_eq_some_iff.mp h).1

@[simp] theorem key_withCell (r : Row) (c : Cell) : (r.withCell c).key = r.key := rfl

/-- **Putting a cell affects its own name alone**, where it is found if it is live. -/
theorem cell?_withCell (r : Row) (c : Cell) (name : String) :
    (r.withCell c).cell? name =
      if name = c.name then (some c).filter Cell.isLive else r.cell? name := by
  rw [withCell, cell?_ofMap, NameMap.insert_eq_put, NameMap.find?_put]
  change (if name = c.name then some c else r.cells.find? name).filter Cell.isLive = _
  rw [← cell?_eq_find?]
  split
  · rfl
  · cases h : r.cell? name with
    | none => rfl
    | some e => rw [Option.filter_some, if_pos (isLive_of_cell? h)]

/-- The values under other names stay. -/
theorem value?_withCell_of_ne {r : Row} {c : Cell} {name : String} (h : name ≠ c.name) :
    (r.withCell c).value? name = r.value? name := by
  rw [value?, value?, cell?_withCell, if_neg h]

/-! ## Many cells, one after another -/

/-- Putting cells never changes the key. -/
theorem key_foldl_withCell (r : Row) (puts : List Cell) : (puts.foldl withCell r).key = r.key := by
  induction puts generalizing r with
  | nil => rfl
  | cons c puts ih => exact ih (r.withCell c)

/-- **A name has the last cell that was put under it**, or none if that is a tombstone; a name under
which no cell was put has what it had. -/
theorem cell?_foldl_withCell (r : Row) (puts : List Cell) (name : String) :
    (puts.foldl withCell r).cell? name =
      match puts.reverse.find? (·.name == name) with
      | some last => (some last).filter Cell.isLive
      | none => r.cell? name := by
  induction puts generalizing r with
  | nil => rfl
  | cons c puts ih =>
    rw [List.foldl_cons, ih, List.reverse_cons, List.find?_append]
    cases puts.reverse.find? (·.name == name) with
    | some last => rfl
    | none =>
      rw [cell?_withCell]
      by_cases hname : c.name = name
      · simp [hname]
      · simp [hname, Ne.symm hname]

/-- **A row is a map from names to live cells.**  Whatever cells are reconciled to a row and put
into it afterwards, its key stays, its cells are live and in strictly ascending name order, and
look-up finds a cell exactly under the names that are there, namely that cell: under a name that
cells were put under, the last of them.  A further cell takes the place of the one of its name, or
removes it if it is a tombstone, and all other names keep what they have. -/
theorem maps_names (key : Key) (cells puts : List Cell) :
    let r := puts.foldl withCell (ofCells key cells)
    r.key = key ∧ (∀ c ∈ r.cells.entries, c.isLive = true) ∧
      r.cells.entries.Pairwise (fun a b => a.name < b.name) ∧
      (∀ name, (r.cell? name).isSome = true ↔ ∃ c ∈ r.cells.entries, c.name = name) ∧
      (∀ name c, r.cell? name = some c ↔ c ∈ r.cells.entries ∧ c.name = name) ∧
      (∀ name last, puts.reverse.find? (·.name == name) = some last →
        r.cell? name = if last.isLive then some last else none) ∧
      ∀ c name, (r.withCell c).key = r.key ∧
        (r.withCell c).cell? name =
          if name = c.name then if c.isLive then some c else none else r.cell? name := by
  intro r
  refine ⟨key_foldl_withCell _ puts, r.live, r.cells.ascending, fun name => ?_,
    fun name c => cell?_eq_some_iff, fun name last hlast => ?_, fun c name => ⟨rfl, ?_⟩⟩
  · simp only [Option.isSome_iff_exists, cell?_eq_some_iff]
  · rw [cell?_foldl_withCell, hlast]
    exact Option.filter_some
  · rw [cell?_withCell, Option.filter_some]

end RowIndex.Row
