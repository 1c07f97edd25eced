import RowIndex.Proofs.Sorting
import RowIndex.Proofs.Store.LastWrite

/-!
# Proofs/Row/Reconciliation — a row keeps the winning cell of each name

    cells ──sort by name, latest first──▸ sorted ──first of each name──▸ winners ──live──▸ row

Sorting keeps the places of cells that tie (`sort_eq_mergeSort`), so the first cell of a name is the
latest one, and the earliest in the list among equally late ones: read from its end, the list has it
as the last write of its name (`find?_sort`).  Tombstones are dropped after the winners are found,
and so hide every cell that they have won against (`ofCells_reconciles`).  Cells that are held by
their names are in order already, and win: a partition is read as the row of the list of its cells
(`Partition.read_eq_ofCells`).
-/

namespace RowIndex

namespace Cell

/-- A cell of a list wins its name: those of its name that stand before it are earlier, and those
after it are not later. -/
def Wins (c : Cell) (cells : List Cell) : Prop :=
  ∃ before after, cells = before ++ c :: after ∧
    (∀ e ∈ before, e.name = c.name → e.timestamp < c.timestamp) ∧
    ∀ e ∈ after, e.name = c.name → e.timestamp ≤ c.timestamp

/-- The winner of a name is the last write of it when the list is read from its end. -/
theorem wins_iff {c : Cell} {cells : List Cell} : c.Wins cells ↔ c.IsLatest cells.reverse := by
  constructor
  · rintro ⟨before, after, rfl, hbefore, hafter⟩
    refine ⟨after.reverse, before.reverse, by simp, fun e he => ?_, fun e he => ?_⟩
    · exact hafter e (List.mem_reverse.mp he)
    · exact hbefore e (List.mem_reverse.mp he)
  · rintro ⟨before, after, hcells, hbefore, hafter⟩
    refine ⟨after.reverse, before.reverse, ?_, fun e he => ?_, fun e he => ?_⟩
    · rw [← List.reverse_reverse cells, hcells]
      simp
    · exact hafter e (List.mem_reverse.mp he)
    · exact hbefore e (List.mem_reverse.mp he)

/-- Cells of one name are in the order of their times, the latest first. -/
theorem isLE_order_iff {a b : Cell} (hname : a.name = b.name) :
    (a.order b).isLE = true ↔ b.timestamp ≤ a.timestamp := by
  rw [order, hname, Std.compare_self, Ordering.eq_then, Std.isLE_compare]

/-- **Inserting a cell makes it the first of its name unless a later one is there.** -/
theorem find?_insert (c : Cell) {list : List Cell}
    (h : list.Pairwise fun a b => (a.order b).isLE = true) (name : String) :
    (c.insert list).find? (·.name == name) = later name (list.find? (·.name == name)) c := by
  induction list with
  | nil => by_cases hc : c.name = name <;> simp [insert, later, hc]
  | cons d rest ih =>
    obtain ⟨hd, hrest⟩ := List.pairwise_cons.mp h
    rw [insert]
    split
    · rename_i hcd
      by_cases hc : c.name = name
      · have hfirst : ∀ w ∈ d :: rest, (c.order w).isLE = true := by
          refine List.forall_mem_cons.mpr ⟨hcd, fun w hw => ?_⟩
          exact Std.TransCmp.isLE_trans hcd (hd w hw)
        have hlatest : ((d :: rest).find? (·.name == name)).all (·.timestamp ≤ c.timestamp) =
            true := by
          refine (Option.all_eq_true _ _).mpr fun w hw => decide_eq_true ?_
          have hname : w.name = name := by simpa using List.find?_some hw
          exact (isLE_order_iff (hc.trans hname.symm)).mp
            (hfirst w (List.mem_of_find?_eq_some hw))
        rw [later, if_pos ⟨hc, hlatest⟩]
        exact List.find?_cons_of_pos (beq_iff_eq.mpr hc)
      · rw [later, if_neg fun hand => hc hand.1]
        exact List.find?_cons_of_neg fun heq => hc (beq_iff_eq.mp heq)
    · rename_i hcd
      by_cases hdn : d.name = name
      · have hearlier : ¬(c.name = name ∧ (some d).all (·.timestamp ≤ c.timestamp) = true) := by
          rintro ⟨hc, hle⟩
          exact hcd ((isLE_order_iff (hc.trans hdn.symm)).mpr (of_decide_eq_true hle))
        have hfind (l : List Cell) : (d :: l).find? (·.name == name) = some d :=
          List.find?_cons_of_pos (beq_iff_eq.mpr hdn)
        rw [hfind, hfind, later, if_neg hearlier]
      · have hfind (l : List Cell) :
            (d :: l).find? (·.name == name) = l.find? (·.name == name) :=
          List.find?_cons_of_neg fun heq => hdn (beq_iff_eq.mp heq)
        rw [hfind, hfind, ih hrest]

/-- A cell is inserted right behind the cells that come strictly before it. -/
theorem insert_eq (c : Cell) {list : List Cell}
    (h : list.Pairwise fun a b => (a.order b).isLE = true) :
    c.insert list =
      list.filter (fun d => !(c.order d).isLE) ++ c :: list.filter fun d => (c.order d).isLE := by
  induction list with
  | nil => rfl
  | cons d rest ih =>
    obtain ⟨hd, hrest⟩ := List.pairwise_cons.mp h
    rw [insert]
    split
    · rename_i hcd
      have hall : ∀ e ∈ d :: rest, (c.order e).isLE = true :=
        List.forall_mem_cons.mpr ⟨hcd, fun e he => Std.TransCmp.isLE_trans hcd (hd e he)⟩
      rw [List.filter_eq_self.mpr hall,
        List.filter_eq_nil_iff.mpr fun e he => by simp [hall e he], List.nil_append]
    · rename_i hcd
      have hbefore : (!(c.order d).isLE) = true := by simpa using hcd
      rw [ih hrest, List.filter_cons, if_pos hbefore, List.filter_cons, if_neg hcd,
        List.cons_append]

end Cell

namespace Row

/-- **Cells are sorted stably.** -/
theorem sort_eq_mergeSort (cells : List Cell) :
    sort cells = cells.mergeSort fun a b => (a.order b).isLE := by
  induction cells with
  | nil => simp [sort]
  | cons c rest ih =>
    rw [Sorting.mergeSort_cons_eq (fun _ _ _ => Std.TransCmp.isLE_trans)
      (Sorting.isLE_or_isLE Cell.order), ← ih]
    exact c.insert_eq (pairwise_sort rest)

/-- **The first cell of a name is its last write when the list is read from its end.** -/
theorem find?_sort (cells : List Cell) (name : String) :
    (sort cells).find? (·.name == name) = Cell.latest? name cells.reverse := by
  induction cells with
  | nil => rfl
  | cons c rest ih =>
    rw [List.reverse_cons, Cell.latest?_append_singleton, ← ih]
    exact c.find?_insert (pairwise_sort rest) name

theorem find?_winners (cells : List Cell) (name : String) :
    (winners cells).find? name = (sort cells).find? (·.name == name) :=
  NameMap.find?_ofSorted _ name

theorem find?_winners_eq_some_iff {cells : List Cell} {name : String} {c : Cell} :
    (winners cells).find? name = some c ↔ c.Wins cells ∧ c.name = name := by
  rw [find?_winners, find?_sort, Cell.latest?_eq_some_iff, Cell.wins_iff]

/-- The cells of a row are the winners that are live. -/
theorem mem_cells_ofCells {key : Key} {cells : List Cell} {c : Cell} :
    c ∈ (ofCells key cells).cells.entries ↔ c.Wins cells ∧ c.isLive = true := by
  have hmem : c ∈ (winners cells).entries ↔ c.Wins cells := by
    rw [NameMap.mem_iff_find?, find?_winners_eq_some_iff]
    exact and_iff_left rfl
  rw [← hmem]
  exact List.mem_filter

/-- **A row keeps the winning cell of each name if it is live.**  Every name in a list of cells has
one winner, which is one of the cells and as late as any of its name.  The cells of the row are the
winners that are live, as they were written and in strictly ascending order of their names; where a
tombstone wins, the row has no cell of the name. -/
theorem ofCells_reconciles (key : Key) (cells : List Cell) :
    let r := ofCells key cells
    r.key = key ∧ r.cells.entries.Pairwise (fun a b => a.name < b.name) ∧
      (∀ c, c ∈ r.cells.entries ↔ c.Wins cells ∧ c.isLive = true) ∧
      (∀ c ∈ cells, ∃! w : Cell, w.Wins cells ∧ w.name = c.name) ∧
      (∀ w : Cell, w.Wins cells →
        w ∈ cells ∧ ∀ c ∈ cells, c.name = w.name → c.timestamp ≤ w.timestamp) ∧
      ∀ w : Cell, w.Wins cells → w.isLive = false → ∀ c ∈ r.cells.entries, c.name ≠ w.name := by
  intro r
  have hunique {w v : Cell} (hw : w.Wins cells) (hv : v.Wins cells) (hname : w.name = v.name) :
      w = v := (Cell.wins_iff.mp hw).unique (Cell.wins_iff.mp hv) hname
  refine ⟨rfl, r.cells.ascending, fun c => mem_cells_ofCells, fun c hc => ?_, fun w hw => ?_, ?_⟩
  · obtain ⟨w, hw, -⟩ := Cell.exists_latest?_of_mem (List.mem_reverse.mpr hc)
    obtain ⟨hlatest, hname⟩ := Cell.latest?_eq_some_iff.mp hw
    have hwins := Cell.wins_iff.mpr hlatest
    exact ⟨w, ⟨hwins, hname⟩, fun v hv => hunique hv.1 hwins (hv.2.trans hname.symm)⟩
  · have hlatest := Cell.wins_iff.mp hw
    exact ⟨List.mem_reverse.mp hlatest.mem, fun c hc => hlatest.le (List.mem_reverse.mpr hc)⟩
  · intro w hw hdead c hc hname
    obtain ⟨hwins, hlive⟩ := mem_cells_ofCells.mp hc
    rw [hunique hwins hw hname, hdead] at hlive
    contradiction

/-- Of two cells that are equally late the first one wins, be it a tombstone or a live cell. -/
theorem ofCells_reconciles_of_ties :
    let key : Key := ⟨.byteOrdered [1], [1]⟩
    let tombstone : Cell := ⟨"n", none, 7⟩
    let live : Cell := ⟨"k", some (.int 4), 7⟩
    let cells : List Cell :=
      [⟨"n", some (.int 1), 5⟩, tombstone, ⟨"n", some (.int 3), 7⟩, live, ⟨"k", none, 7⟩]
    tombstone.Wins cells ∧ live.Wins cells ∧ live ∈ (ofCells key cells).cells.entries ∧
      (∀ c ∈ (ofCells key cells).cells.entries, c.name ≠ "n") ∧
      ∃! w : Cell, w.Wins cells ∧ w.name = "n" := by
  intro key tombstone live cells
  have htombstone : tombstone.Wins cells := ⟨[_], [_, _, _], rfl, by decide, by decide⟩
  have hlive : live.Wins cells := ⟨[_, _, _], [_], rfl, by decide, by decide⟩
  obtain ⟨-, -, hmem, hone, -, hnone⟩ := ofCells_reconciles key cells
  exact ⟨htombstone, hlive, (hmem live).mpr ⟨hlive, rfl⟩, hnone tombstone htombstone rfl,
    hone tombstone (by decide)⟩

/-! ## Cells of a map -/

/-- The cells of a map are in the order in which a row takes them up, and all of them win. -/
theorem winners_entries (cells : NameMap Cell) : winners cells.entries = cells := by
  have hordered : cells.entries.Pairwise fun a b => (a.order b).isLE = true :=
    cells.ascending.imp fun {a b} hlt => by
      have hname : compare a.name b.name = .lt := if_pos hlt
      rw [Cell.order, hname]
      rfl
  refine NameMap.eq_of_find?_eq fun name => ?_
  rw [find?_winners, sort_eq_mergeSort, List.mergeSort_of_pairwise hordered]
  rfl

/-- **A map of cells amounts to the same row as the list of its cells.** -/
theorem ofCells_entries (key : Key) (cells : NameMap Cell) :
    ofCells key cells.entries = ofMap key cells := by rw [ofCells, winners_entries]

end Row

/-- **A partition is read as the row of its cells** that were written up to the time. -/
theorem Partition.read_eq_ofCells (p : Partition) (key : Key) (time : Int64) :
    p.read key time = Row.ofCells key (p.cells.filter (·.timestamp ≤ time)).entries :=
  (Row.ofCells_entries key _).symm

end RowIndex
