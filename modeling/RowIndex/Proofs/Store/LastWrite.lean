import Mathlib.Data.List.Induction
import RowIndex.Proofs.Store.LiveRows

/-!
# Proofs/Store/LastWrite — the last write wins, in whatever order mutations arrive

What a store keeps of a key depends on two lists alone, the cells that were ever written to the key
and its deletions:

    mutations ──▸ cells ──latest of each name──▸ winners ──no deletion covers──▸ kept ──▸ read

A deletion removes winners and never losers that would have to come back: what it covers is older
than every winner that stays.  So a partition reflects its whole history (`Reflects.apply`), a read
is given in closed form, and mutations can be reordered as long as no two different cells of a key
share their name and their time (`read_ofMutations`).
-/

namespace RowIndex

/-! ## The latest cell of a name -/

namespace Cell

/-- The later of two cells of a name, the second one if they are equally late; a cell of another
name does not count. -/
def later (name : String) (best : Option Cell) (c : Cell) : Option Cell :=
  if c.name = name ∧ best.all (·.timestamp ≤ c.timestamp) then some c else best

/-- The latest cell of a name in a list, the last one among equally late ones. -/
def latest? (name : String) (cells : List Cell) : Option Cell := cells.foldl (later name) none

/-- A cell of a list is the latest of its name: none before it is later, all after it are
earlier. -/
def IsLatest (c : Cell) (cells : List Cell) : Prop :=
  ∃ before after, cells = before ++ c :: after ∧
    (∀ e ∈ before, e.name = c.name → e.timestamp ≤ c.timestamp) ∧
    ∀ e ∈ after, e.name = c.name → e.timestamp < c.timestamp

variable {name : String} {cells : List Cell} {c d : Cell}

theorem latest?_append_singleton (name : String) (cells : List Cell) (c : Cell) :
    latest? name (cells ++ [c]) = later name (latest? name cells) c := by
  rw [latest?, List.foldl_append]
  rfl

/-- The later of two cells is at least as late as the second one. -/
theorem exists_later_self (best : Option Cell) (c : Cell) :
    ∃ w, later c.name best c = some w ∧ c.timestamp ≤ w.timestamp := by
  rw [later]
  cases best with
  | none => exact ⟨c, by simp, Int64.le_refl _⟩
  | some b =>
    by_cases hle : b.timestamp ≤ c.timestamp
    · exact ⟨c, by simp [hle], Int64.le_refl _⟩
    · exact ⟨b, by simp [hle], Int64.le_of_lt (Int64.not_le.mp hle)⟩

/-- The later of two cells is at least as late as the first one. -/
theorem exists_later_of_some (name : String) (b c : Cell) :
    ∃ w, later name (some b) c = some w ∧ b.timestamp ≤ w.timestamp := by
  rw [later]
  split
  · rename_i h
    exact ⟨c, rfl, of_decide_eq_true h.2⟩
  · exact ⟨b, rfl, Int64.le_refl _⟩

/-- No cell of a list is later than the latest of its name. -/
theorem exists_latest?_of_mem (h : c ∈ cells) :
    ∃ w, latest? c.name cells = some w ∧ c.timestamp ≤ w.timestamp := by
  induction cells using List.reverseRecOn with
  | nil => exact (List.not_mem_nil h).elim
  | append_singleton cells n ih =>
    rw [latest?_append_singleton]
    rcases List.mem_append.mp h with h | h
    · obtain ⟨b, hb, hle⟩ := ih h
      obtain ⟨w, hw, hle'⟩ := exists_later_of_some c.name b n
      exact ⟨w, hb ▸ hw, Int64.le_trans hle hle'⟩
    · obtain rfl := List.mem_singleton.mp h
      exact exists_later_self _ _

namespace IsLatest

/-- The last cell of a list is the latest of its name if none before it is later. -/
theorem last (h : ∀ e ∈ cells, e.name = c.name → e.timestamp ≤ c.timestamp) :
    c.IsLatest (cells ++ [c]) :=
  ⟨cells, [], rfl, h, fun _ he => (List.not_mem_nil he).elim⟩

/-- The latest cell of a name stays the latest until one as late comes. -/
theorem append_singleton (h : c.IsLatest cells) {n : Cell}
    (hn : n.name = c.name → n.timestamp < c.timestamp) : c.IsLatest (cells ++ [n]) := by
  obtain ⟨before, after, rfl, hbefore, hafter⟩ := h
  refine ⟨before, after ++ [n], by simp, hbefore, fun e he => ?_⟩
  rcases List.mem_append.mp he with he | he
  · exact hafter e he
  · exact List.mem_singleton.mp he ▸ hn

theorem mem (h : c.IsLatest cells) : c ∈ cells := by
  obtain ⟨before, after, rfl, -, -⟩ := h
  exact List.mem_append_right _ List.mem_cons_self

theorem le (h : c.IsLatest cells) {e : Cell} (he : e ∈ cells) (hname : e.name = c.name) :
    e.timestamp ≤ c.timestamp := by
  obtain ⟨before, after, rfl, hbefore, hafter⟩ := h
  rcases List.mem_append.mp he with he | he
  · exact hbefore e he hname
  · rcases List.mem_cons.mp he with rfl | he
    · exact Int64.le_refl _
    · exact Int64.le_of_lt (hafter e he hname)

/-- A name has one latest cell. -/
theorem unique (hc : c.IsLatest cells) (hd : d.IsLatest cells) (hname : c.name = d.name) :
    c = d := by
  have hle := hc.le hd.mem hname.symm
  have hge := hd.le hc.mem hname
  obtain ⟨before, after, rfl, -, hafter⟩ := hc
  obtain ⟨before', after', heq, -, hafter'⟩ := hd
  rcases List.append_eq_append_iff.mp heq with ⟨mid, rfl, hmid⟩ | ⟨mid, rfl, hmid⟩
  · cases mid with
    | nil => exact (List.cons.inj hmid).1
    | cons e mid =>
      obtain ⟨rfl, rfl⟩ := List.cons.inj hmid
      have hlt := hafter d (List.mem_append_right _ List.mem_cons_self) hname.symm
      exact (Int64.not_le.mpr hlt hge).elim
  · cases mid with
    | nil => exact (List.cons.inj hmid).1.symm
    | cons e mid =>
      obtain ⟨rfl, rfl⟩ := List.cons.inj hmid
      have hlt := hafter' c (List.mem_append_right _ List.mem_cons_self) hname
      exact (Int64.not_le.mpr hlt hle).elim

end IsLatest

/-- What is found as the latest cell of a name is the latest of its name. -/
theorem isLatest_of_latest? (h : latest? name cells = some c) :
    c.IsLatest cells ∧ c.name = name := by
  induction cells using List.reverseRecOn with
  | nil => contradiction
  | append_singleton cells n ih =>
    rw [latest?_append_singleton, later] at h
    split at h
    · rename_i hn
      obtain rfl := Option.some.inj h
      refine ⟨.last fun e he hname => ?_, hn.1⟩
      obtain ⟨w, hw, hle⟩ := exists_latest?_of_mem he
      rw [← hn.1, ← hname, hw, Option.all_some, decide_eq_true_eq] at hn
      exact Int64.le_trans hle hn.2
    · rename_i hn
      obtain ⟨hc, hname⟩ := ih h
      refine ⟨hc.append_singleton fun heq => ?_, hname⟩
      rw [h, Option.all_some, decide_eq_true_eq] at hn
      exact Int64.not_le.mp fun hle => hn ⟨heq.trans hname, hle⟩

/-- **The search for the latest cell of a name finds it.** -/
theorem latest?_eq_some_iff : latest? name cells = some c ↔ c.IsLatest cells ∧ c.name = name := by
  refine ⟨isLatest_of_latest?, ?_⟩
  rintro ⟨hc, rfl⟩
  obtain ⟨w, hw, -⟩ := exists_latest?_of_mem hc.mem
  obtain ⟨hlatest, hname⟩ := isLatest_of_latest? hw
  rw [hw, hlatest.unique hc hname]

/-- Keeping late cells only, one can keep them before or after the latest is sought. -/
theorem filter_later {keep : Cell → Bool}
    (hkeep : ∀ a b : Cell, a.timestamp ≤ b.timestamp → keep a = true → keep b = true)
    (name : String) (best : Option Cell) (c : Cell) :
    (later name best c).filter keep =
      if c.name = name ∧ keep c = true ∧ (best.filter keep).all (·.timestamp ≤ c.timestamp)
      then some c else best.filter keep := by
  rw [later]
  by_cases hname : c.name = name
  · cases best with
    | none => simp [hname, Option.filter_some]
    | some w =>
      have hearlier : keep w = false → keep c = true → w.timestamp ≤ c.timestamp := by
        intro hw hc
        refine Int64.not_lt.mp fun hlt => Bool.eq_false_iff.mp hw ?_
        exact hkeep c w (Int64.le_of_lt hlt) hc
      have hlater : keep w = true → keep c = false → ¬ w.timestamp ≤ c.timestamp := by
        intro hw hc hle
        exact Bool.eq_false_iff.mp hc (hkeep w c hle hw)
      grind
  · simp [hname]

/-- Cells of one name and one time are one cell. -/
def Unambiguous (cells : List Cell) : Prop :=
  ∀ a ∈ cells, ∀ b ∈ cells, a.name = b.name → a.timestamp = b.timestamp → a = b

instance (cells : List Cell) : Decidable (Unambiguous cells) :=
  inferInstanceAs (Decidable (∀ a ∈ cells, ∀ b ∈ cells, _))

/-- The latest cell stays the latest when cells of different times are reordered. -/
theorem latest?_of_perm {cells' : List Cell} (hperm : cells.Perm cells')
    (hone : Unambiguous cells) (h : latest? name cells = some c) :
    latest? name cells' = some c := by
  obtain ⟨hc, rfl⟩ := isLatest_of_latest? h
  obtain ⟨w, hw, hle⟩ := exists_latest?_of_mem (hperm.mem_iff.mp hc.mem)
  obtain ⟨hlatest, hname⟩ := isLatest_of_latest? hw
  have hmem : w ∈ cells := hperm.mem_iff.mpr hlatest.mem
  have hge : w.timestamp ≤ c.timestamp := hc.le hmem hname
  rw [hw, hone w hmem c hc.mem hname (Int64.le_antisymm hge hle)]

/-- **The order of cells of different times does not matter.** -/
theorem latest?_eq_of_perm {cells' : List Cell} (hperm : cells.Perm cells')
    (hone : Unambiguous cells) : latest? name cells' = latest? name cells := by
  have hone' : Unambiguous cells' := fun a ha b hb =>
    hone a (hperm.mem_iff.mpr ha) b (hperm.mem_iff.mpr hb)
  exact Option.ext fun c => ⟨latest?_of_perm hperm.symm hone', latest?_of_perm hperm hone⟩

end Cell

/-! ## Partitions reflect their history -/

namespace Partition

variable {p : Partition}

/-- What is covered stays covered by whatever covers later times. -/
theorem shadows_of_le {s t : Int64} (h : p.shadows t = true) (hle : s ≤ t) :
    p.shadows s = true := by
  obtain ⟨d, hd, ht⟩ := (Option.any_eq_true _ _).mp h
  have hs : s ≤ d.markedAt := Int64.le_trans hle (of_decide_eq_true ht)
  exact (Option.any_eq_true _ _).mpr ⟨d, hd, decide_eq_true hs⟩

/-- Of two deletions the later one stays, and it covers what either covers. -/
theorem shadows_delete (p : Partition) (d : Deletion) (t : Int64) :
    (p.delete d).shadows t = (p.shadows t || d.shadows t) := by
  obtain ⟨deletion, cells⟩ := p
  cases deletion with
  | none => rfl
  | some old =>
    by_cases h : old.markedAt < d.markedAt
    · simp only [shadows, delete, Deletion.shadows, Option.all_some, Option.any_some, h]
      grind
    · simp only [shadows, delete, Deletion.shadows, Option.all_some, Option.any_some, h]
      grind

theorem shadows_write (p : Partition) (c : Cell) (t : Int64) :
    (p.write c).shadows t = p.shadows t := by
  rw [write]
  split <;> rfl

theorem find?_write (p : Partition) (c : Cell) (name : String) :
    (p.write c).cells.find? name =
      if c.name = name ∧ (!p.shadows c.timestamp) = true ∧
        (p.cells.find? name).all (·.timestamp ≤ c.timestamp) then some c
      else p.cells.find? name := by
  rw [write]
  split
  · simp [*]
  · rename_i hs
    have hput := NameMap.find?_putIf p.cells (fun old => old.timestamp ≤ c.timestamp) c name
    have hc : Named.name c = c.name := rfl
    rw [hput, hc]
    cases p.cells.find? name <;> grind

/-- A partition reflects a history of cells and deletions: it covers what some deletion covers, and
holds under every name the latest cell, unless that is covered. -/
structure Reflects (p : Partition) (cells : List Cell) (deletions : List Deletion) : Prop where
  shadows_eq : ∀ t, p.shadows t = deletions.any (·.shadows t)
  find?_eq : ∀ name,
    p.cells.find? name = (Cell.latest? name cells).filter fun c => !p.shadows c.timestamp

namespace Reflects

variable {cells : List Cell} {deletions : List Deletion}

theorem empty : Reflects {} [] [] := ⟨fun _ => rfl, fun _ => rfl⟩

theorem delete (h : p.Reflects cells deletions) (d : Deletion) :
    (p.delete d).Reflects cells (deletions ++ [d]) where
  shadows_eq t := by
    rw [shadows_delete, h.shadows_eq, List.any_append, List.any_cons, List.any_nil, Bool.or_false]
  find?_eq name := by
    have hcells : (p.delete d).cells.find? name =
        (p.cells.find? name).filter fun c => !d.shadows c.timestamp := NameMap.find?_filter ..
    rw [hcells, h.find?_eq, Option.filter_filter]
    simp only [shadows_delete, Bool.not_or]

/-- **One more cell.**  A covered cell takes no name from an uncovered one, which is later. -/
theorem write (h : p.Reflects cells deletions) (c : Cell) :
    (p.write c).Reflects (cells ++ [c]) deletions where
  shadows_eq t := (p.shadows_write c t).trans (h.shadows_eq t)
  find?_eq name := by
    have hkeep (a b : Cell) (hle : a.timestamp ≤ b.timestamp)
        (ha : (!p.shadows a.timestamp) = true) : (!p.shadows b.timestamp) = true := by
      rw [Bool.not_eq_true'] at ha ⊢
      exact Bool.eq_false_iff.mpr fun hb => Bool.eq_false_iff.mp ha (shadows_of_le hb hle)
    simp only [shadows_write]
    rw [Cell.latest?_append_singleton, Cell.filter_later hkeep, ← h.find?_eq, find?_write]

theorem foldl_write (h : p.Reflects cells deletions) (written : List Cell) :
    (written.foldl Partition.write p).Reflects (cells ++ written) deletions := by
  induction written generalizing p cells with
  | nil => rwa [List.append_nil]
  | cons c rest ih =>
    have hrest := ih (h.write c)
    rwa [List.append_assoc] at hrest

/-- **One more mutation.** -/
theorem apply (h : p.Reflects cells deletions) (m : Mutation) :
    (p.apply m).Reflects (cells ++ m.cells) (deletions ++ m.deletion.toList) := by
  rw [Partition.apply]
  cases m.deletion with
  | none =>
    rw [Option.toList_none, List.append_nil]
    exact h.foldl_write m.cells
  | some d => exact (h.delete d).foldl_write m.cells

/-- **A partition reflects all mutations that were ever applied to it.** -/
theorem foldl_apply (mutations : List Mutation) :
    (mutations.foldl Partition.apply {}).Reflects (mutations.flatMap Mutation.cells)
      (mutations.filterMap Mutation.deletion) := by
  induction mutations using List.reverseRecOn with
  | nil => exact empty
  | append_singleton mutations m ih =>
    have hm := ih.apply m
    have hlast : [m].filterMap Mutation.deletion = m.deletion.toList := by
      cases h : m.deletion <;> simp [h]
    rwa [List.foldl_append, List.flatMap_append, List.flatMap_singleton, List.filterMap_append,
      hlast]

/-- The cells that are kept: the latest of their names, later than every deletion. -/
theorem mem_cells_iff (h : p.Reflects cells deletions) {c : Cell} :
    c ∈ p.cells.entries ↔
      c.IsLatest cells ∧ ∀ d ∈ deletions, d.markedAt < c.timestamp := by
  have hcovered : (!p.shadows c.timestamp) = true ↔ ∀ d ∈ deletions, d.markedAt < c.timestamp := by
    simp [h.shadows_eq, Deletion.shadows]
  have hlatest : Cell.latest? (Named.name c) cells = some c ↔ c.IsLatest cells :=
    Cell.latest?_eq_some_iff.trans (and_iff_left rfl)
  rw [NameMap.mem_iff_find?, h.find?_eq, Option.filter_eq_some_iff, hlatest, hcovered]

/-- What is kept is settled by the latest cells and by what the deletions cover. -/
theorem cells_eq (h : p.Reflects cells deletions) {q : Partition} {cells' : List Cell}
    {deletions' : List Deletion} (hq : q.Reflects cells' deletions')
    (hcells : ∀ name, Cell.latest? name cells' = Cell.latest? name cells)
    (hdeletions : deletions.Perm deletions') : q.cells = p.cells := by
  refine NameMap.eq_of_find?_eq fun name => ?_
  have hshadows : q.shadows = p.shadows := by
    funext t
    rw [hq.shadows_eq, h.shadows_eq, hdeletions.any_eq]
  rw [hq.find?_eq, h.find?_eq, hcells, hshadows]

end Reflects

end Partition

/-! ## Stores after a list of mutations -/

namespace Store

/-- The store after a list of mutations, each applied to its key. -/
def ofMutations (p : Partitioner) (writes : List (Bytes × Mutation)) : Store :=
  writes.foldl (fun s w => s.apply w.1 w.2) { partitioner := p }

/-- The mutations of a key, in order. -/
def mutationsOf (p : Partitioner) (key : Key) (writes : List (Bytes × Mutation)) : List Mutation :=
  (writes.filter fun w => p.place w.1 = key).map Prod.snd

/-- The cells that were ever written to a key, in order. -/
def cellsOf (p : Partitioner) (key : Key) (writes : List (Bytes × Mutation)) : List Cell :=
  (mutationsOf p key writes).flatMap Mutation.cells

/-- The deletions that were ever applied to a key, in order. -/
def deletionsOf (p : Partitioner) (key : Key) (writes : List (Bytes × Mutation)) : List Deletion :=
  (mutationsOf p key writes).filterMap Mutation.deletion

variable {p : Partitioner} {key : Key} {writes : List (Bytes × Mutation)}

theorem ofMutations_append_singleton (p : Partitioner) (writes : List (Bytes × Mutation))
    (w : Bytes × Mutation) :
    ofMutations p (writes ++ [w]) = (ofMutations p writes).apply w.1 w.2 := by
  rw [ofMutations, List.foldl_append]
  rfl

theorem partitioner_ofMutations (p : Partitioner) (writes : List (Bytes × Mutation)) :
    (ofMutations p writes).partitioner = p := by
  induction writes using List.reverseRecOn with
  | nil => rfl
  | append_singleton writes w ih => rw [ofMutations_append_singleton, apply, ih]

theorem mutationsOf_append_singleton (p : Partitioner) (key : Key)
    (writes : List (Bytes × Mutation)) (w : Bytes × Mutation) :
    mutationsOf p key (writes ++ [w]) =
      mutationsOf p key writes ++ if p.place w.1 = key then [w.2] else [] := by
  rw [mutationsOf, List.filter_append, List.map_append]
  by_cases h : p.place w.1 = key <;> simp [mutationsOf, h]

theorem mutationsOf_eq_nil_iff :
    mutationsOf p key writes = [] ↔ ∀ w ∈ writes, p.place w.1 ≠ key := by
  simp [mutationsOf]

/-- **The partition of a key is what its own mutations make of an empty one.** -/
theorem partition?_ofMutations (p : Partitioner) (key : Key) (writes : List (Bytes × Mutation)) :
    (ofMutations p writes).partition? key =
      if mutationsOf p key writes = [] then none
      else some ((mutationsOf p key writes).foldl Partition.apply {}) := by
  induction writes using List.reverseRecOn with
  | nil => rfl
  | append_singleton writes w ih =>
    have hplace : (ofMutations p writes).place w.1 = p.place w.1 := by
      rw [place, partitioner_ofMutations]
    rw [ofMutations_append_singleton, partition?_apply, mutationsOf_append_singleton, ih, hplace]
    by_cases hkey : key = p.place w.1
    · have hbefore : (if mutationsOf p key writes = [] then none
          else some ((mutationsOf p key writes).foldl Partition.apply {})).getD {} =
          (mutationsOf p key writes).foldl Partition.apply {} := by
        split
        · rename_i hnil
          rw [hnil]
          rfl
        · rfl
      rw [if_pos hkey, if_pos hkey.symm, hbefore, if_neg (by simp), List.foldl_append]
      rfl
    · rw [if_neg hkey, if_neg (Ne.symm hkey), List.append_nil]

/-- A key can be read exactly if a mutation was applied to it. -/
theorem read_ofMutations_eq_none_iff {time : Int64} :
    (ofMutations p writes).read key time = none ↔ ∀ w ∈ writes, p.place w.1 ≠ key := by
  rw [read, Option.map_eq_none_iff, partition?_ofMutations, ← mutationsOf_eq_nil_iff]
  split <;> simp [*]

/-- The cells of a row that is read: of those ever written the latest of their names, if they are
live, not deleted, and old enough. -/
theorem mem_cells_of_read {time : Int64} {row : Row}
    (h : (ofMutations p writes).read key time = some row) {c : Cell} :
    c ∈ row.cells.entries ↔
      c.IsLatest (cellsOf p key writes) ∧ c.isLive = true ∧
        (∀ d ∈ deletionsOf p key writes, d.markedAt < c.timestamp) ∧ c.timestamp ≤ time := by
  obtain ⟨q, hq, rfl⟩ := Option.map_eq_some_iff.mp h
  rw [partition?_ofMutations] at hq
  split at hq
  · contradiction
  · obtain rfl := Option.some.inj hq
    rw [Partition.mem_cells_read, (Partition.Reflects.foldl_apply _).mem_cells_iff]
    exact ⟨fun ⟨⟨hc, hd⟩, htime, hlive⟩ => ⟨hc, hlive, hd, htime⟩,
      fun ⟨hc, hlive, hd, htime⟩ => ⟨⟨hc, hd⟩, htime, hlive⟩⟩

/-- **Mutations can be reordered** as long as cells of one name and time are one cell. -/
theorem read_ofMutations_of_perm {writes' : List (Bytes × Mutation)} (hperm : writes.Perm writes')
    (hone : Cell.Unambiguous (cellsOf p key writes)) (time : Int64) :
    (ofMutations p writes').read key time = (ofMutations p writes).read key time := by
  have hmutations : (mutationsOf p key writes).Perm (mutationsOf p key writes') :=
    (hperm.filter _).map _
  have hnil : mutationsOf p key writes' = [] ↔ mutationsOf p key writes = [] := by
    rw [← List.length_eq_zero_iff, ← List.length_eq_zero_iff, hmutations.length_eq]
  have hcells : ((mutationsOf p key writes').foldl Partition.apply {}).cells =
      ((mutationsOf p key writes).foldl Partition.apply {}).cells :=
    (Partition.Reflects.foldl_apply _).cells_eq (Partition.Reflects.foldl_apply _)
      (fun _ => Cell.latest?_eq_of_perm (hmutations.flatMap_right _) hone)
      (hmutations.filterMap _)
  rw [read, read, partition?_ofMutations, partition?_ofMutations]
  by_cases h : mutationsOf p key writes = []
  · rw [if_pos h, if_pos (hnil.mpr h)]
  · rw [if_neg h, if_neg (mt hnil.mp h), Option.map_some, Option.map_some, Partition.read,
      Partition.read, hcells]

/-- **The last write wins.**  A key can be read exactly if a mutation was applied to it.  Its row
then holds, in the order of names, the latest cells among all that were ever written, as far as they
are live, later than every deletion, and old enough.  So the mutations can be reordered, as long as
no two different cells of the key share their name and their time. -/
theorem read_ofMutations (p : Partitioner) (writes : List (Bytes × Mutation)) (key : Key)
    (time : Int64) :
    ((ofMutations p writes).read key time = none ↔ ∀ w ∈ writes, p.place w.1 ≠ key) ∧
    (∀ row, (ofMutations p writes).read key time = some row →
      row.key = key ∧ row.cells.entries.Pairwise (fun a b => a.name < b.name) ∧
      ∀ c, c ∈ row.cells.entries ↔
        c.IsLatest (cellsOf p key writes) ∧ c.isLive = true ∧
          (∀ d ∈ deletionsOf p key writes, d.markedAt < c.timestamp) ∧ c.timestamp ≤ time) ∧
    ∀ writes', writes.Perm writes' → Cell.Unambiguous (cellsOf p key writes) →
      (ofMutations p writes').read key time = (ofMutations p writes).read key time := by
  refine ⟨read_ofMutations_eq_none_iff, fun row hread => ?_, fun writes' hperm hone => ?_⟩
  · exact ⟨key_of_read hread, row.cells.ascending, fun c => mem_cells_of_read hread⟩
  · exact read_ofMutations_of_perm hperm hone time

/-- A write that comes late is covered by a deletion, one that comes early is not, and a tombstone
hides an older cell, in whatever order they arrive. -/
theorem read_ofMutations_reversed :
    let cell (name : String) (n : Int32) (time : Int64) : Cell := ⟨name, some (.int n), time⟩
    let writes : List (Bytes × Mutation) :=
      [([1], { cells := [cell "m" 1 30, cell "n" 2 30] }),
        ([1], { deletion := some ⟨20⟩, cells := [⟨"m", none, 40⟩] }),
        ([2], { cells := [cell "n" 3 10] }), ([1], { cells := [cell "n" 4 15, cell "o" 5 20] })]
    let key : Key := ⟨.byteOrdered [1], [1]⟩
    writes.Perm writes.reverse ∧ Cell.Unambiguous (cellsOf .byteOrdered key writes) ∧
      (ofMutations .byteOrdered writes).read key 50 =
        some (.ofMap key (.ofList [cell "n" 2 30])) ∧
      (ofMutations .byteOrdered writes.reverse).read key 50 =
        some (.ofMap key (.ofList [cell "n" 2 30])) := by
  intro cell writes key
  have hperm : writes.Perm writes.reverse := (List.reverse_perm writes).symm
  have hone : Cell.Unambiguous (cellsOf .byteOrdered key writes) := by decide +kernel
  have hread : (ofMutations .byteOrdered writes).read key 50 =
      some (.ofMap key (.ofList [cell "n" 2 30])) := by decide +kernel
  exact ⟨hperm, hone, hread, ((read_ofMutations _ _ _ _).2.2 _ hperm hone).trans hread⟩

end Store

end RowIndex
