import RowIndex.Proofs.Store.Partitions

/-!
# Proofs/Store/LiveRows — when a row has live cells

A row is live at a time if it can be read and is not empty.  Only a mutation that deletes something
can end the life of a row (`isSome_liveRow?_apply`).  Reading at an earlier time hides later cells,
so a row is gone as of a time exactly if all its live cells are newer (`liveRow?_eq_none_iff`).
-/

namespace RowIndex

/-! ## Cells of a partition -/

namespace Partition

theorem mem_cells_read {p : Partition} {key : Key} {time : Int64} {c : Cell} :
    c ∈ (p.read key time).cells.entries ↔
      c ∈ p.cells.entries ∧ c.timestamp ≤ time ∧ c.isLive = true := by
  simp only [read, Row.ofMap, NameMap.filter, List.mem_filter, decide_eq_true_eq, and_assoc]

/-- A written cell is the new one, or one that was there. -/
theorem mem_cells_write {p : Partition} {c e : Cell} (h : e ∈ (p.write c).cells.entries) :
    e = c ∨ e ∈ p.cells.entries := by
  rw [write] at h
  split at h
  · exact Or.inr h
  · exact NameMap.mem_of_mem_place h

theorem mem_cells_foldl_write {cells : List Cell} {p : Partition} {e : Cell}
    (h : e ∈ (cells.foldl write p).cells.entries) : e ∈ cells ∨ e ∈ p.cells.entries := by
  induction cells generalizing p with
  | nil => exact Or.inr h
  | cons c rest ih =>
    rcases ih h with h | h
    · exact Or.inl (List.mem_cons_of_mem _ h)
    · rcases mem_cells_write h with rfl | h
      · exact Or.inl List.mem_cons_self
      · exact Or.inr h

/-- Mutations invent no cells. -/
theorem mem_cells_apply {p : Partition} {m : Mutation} {e : Cell}
    (h : e ∈ (p.apply m).cells.entries) : e ∈ m.cells ∨ e ∈ p.cells.entries := by
  rcases mem_cells_foldl_write h with h | h
  · exact Or.inl h
  · cases hd : m.deletion with
    | none =>
      rw [hd] at h
      exact Or.inr h
    | some d =>
      rw [hd] at h
      exact Or.inr (List.mem_filter.mp h).1

/-- Whether some cell is live. -/
def HasLive (p : Partition) : Prop := ∃ c ∈ p.cells.entries, c.isLive = true

/-- Writing a live cell leaves a live cell, under whatever name there was one. -/
theorem HasLive.write {p : Partition} (h : p.HasLive) {c : Cell} (hc : c.isLive = true) :
    (p.write c).HasLive := by
  obtain ⟨e, he, hlive⟩ := h
  rw [Partition.write]
  split
  · exact ⟨e, he, hlive⟩
  · have hfound := NameMap.find?_putIf p.cells (fun old => old.timestamp ≤ c.timestamp) c
      (Named.name e)
    rw [NameMap.mem_iff_find?.mp he] at hfound
    split at hfound
    · refine ⟨_, (NameMap.find?_eq_some_iff.mp hfound).1, ?_⟩
      split
      · exact hc
      · exact hlive
    · exact ⟨e, (NameMap.find?_eq_some_iff.mp hfound).1, hlive⟩

theorem HasLive.foldl_write {cells : List Cell} (hcells : ∀ c ∈ cells, c.isLive = true)
    {p : Partition} (h : p.HasLive) : (cells.foldl Partition.write p).HasLive := by
  induction cells generalizing p with
  | nil => exact h
  | cons c rest ih =>
    obtain ⟨hc, hrest⟩ := List.forall_mem_cons.mp hcells
    exact ih hrest (h.write hc)

/-- **A mutation that deletes nothing leaves a live cell if there was one.** -/
theorem HasLive.apply {p : Partition} (h : p.HasLive) {m : Mutation} (hm : m.isDeletion = false) :
    (p.apply m).HasLive := by
  obtain ⟨hnone, hlive⟩ : m.deletion = none ∧ ∀ c ∈ m.cells, c.isLive = true := by
    simpa [Mutation.isDeletion] using hm
  rw [Partition.apply, hnone]
  exact HasLive.foldl_write hlive h

end Partition

/-! ## Live rows -/

namespace Store

theorem key_of_read {s : Store} {key : Key} {time : Int64} {r : Row}
    (h : s.read key time = some r) : r.key = key := by
  obtain ⟨p, -, rfl⟩ := Option.map_eq_some_iff.mp h
  rfl

/-- The row of a key as of a time, if it has live cells. -/
def liveRow? (s : Store) (key : Key) (time : Int64) : Option Row :=
  (s.read key time).filter (!·.isEmpty)

theorem liveRow?_eq_some_iff {s : Store} {key : Key} {time : Int64} {r : Row} :
    s.liveRow? key time = some r ↔ s.read key time = some r ∧ r.isEmpty = false := by
  rw [liveRow?, Option.filter_eq_some_iff, Bool.not_eq_true']

theorem key_of_liveRow? {s : Store} {key : Key} {time : Int64} {r : Row}
    (h : s.liveRow? key time = some r) : r.key = key :=
  key_of_read (liveRow?_eq_some_iff.mp h).1

theorem liveRow?_empty (p : Partitioner) (key : Key) (time : Int64) :
    liveRow? { partitioner := p } key time = none := rfl

theorem liveRow?_congr {s s' : Store} {key : Key} (h : s'.partition? key = s.partition? key)
    (time : Int64) : s'.liveRow? key time = s.liveRow? key time := by
  rw [liveRow?, liveRow?, read, read, h]

/-- A mutation changes the row of its key alone. -/
theorem liveRow?_apply_of_ne {s : Store} {bytes b : Bytes} (h : b ≠ bytes) (m : Mutation)
    (time : Int64) : (s.apply bytes m).liveRow? (s.place b) time = s.liveRow? (s.place b) time :=
  liveRow?_congr (by rw [partition?_apply_place, if_neg h]) time

/-- A row is live if its partition has a live cell that is old enough. -/
theorem isSome_liveRow?_iff {s : Store} {key : Key} {time : Int64} :
    (s.liveRow? key time).isSome ↔
      ∃ p, s.partition? key = some p ∧
        ∃ c ∈ p.cells.entries, c.timestamp ≤ time ∧ c.isLive = true := by
  simp only [Option.isSome_iff_exists, liveRow?_eq_some_iff, read, Option.map_eq_some_iff]
  constructor
  · rintro ⟨r, ⟨p, hp, rfl⟩, hne⟩
    obtain ⟨c, hc⟩ := List.exists_mem_of_ne_nil _ (List.isEmpty_eq_false_iff.mp hne)
    exact ⟨p, hp, c, Partition.mem_cells_read.mp hc⟩
  · rintro ⟨p, hp, c, hc⟩
    have hmem : c ∈ (p.read key time).cells.entries := Partition.mem_cells_read.mpr hc
    exact ⟨_, ⟨p, hp, rfl⟩, List.isEmpty_eq_false_iff.mpr (List.ne_nil_of_mem hmem)⟩

/-- At the greatest time no live cell is hidden. -/
theorem isSome_liveRow?_maxValue_iff {s : Store} {key : Key} :
    (s.liveRow? key Int64.maxValue).isSome ↔ ∃ p, s.partition? key = some p ∧ p.HasLive := by
  rw [isSome_liveRow?_iff]
  simp only [Partition.HasLive, Int64.le_maxValue, true_and]

/-- **Only a mutation that deletes something can end the life of a row.** -/
theorem isSome_liveRow?_apply {s : Store} {bytes : Bytes} {m : Mutation}
    (hm : m.isDeletion = false) (h : (s.liveRow? (s.place bytes) Int64.maxValue).isSome) :
    ((s.apply bytes m).liveRow? (s.place bytes) Int64.maxValue).isSome := by
  obtain ⟨p, hp, hlive⟩ := isSome_liveRow?_maxValue_iff.mp h
  refine isSome_liveRow?_maxValue_iff.mpr ⟨_, by rw [partition?_apply_place, if_pos rfl], ?_⟩
  rw [hp]
  exact hlive.apply hm

/-- **A row is gone as of a time exactly if all its live cells are newer.** -/
theorem liveRow?_eq_none_iff {s : Store} {key : Key} {time : Int64} :
    s.liveRow? key time = none ↔
      ∀ r, s.liveRow? key Int64.maxValue = some r → ∀ c ∈ r.cells.entries, time < c.timestamp := by
  rw [← Option.not_isSome_iff_eq_none, isSome_liveRow?_iff]
  constructor
  · intro h r hr c hc
    obtain ⟨p, hp, rfl⟩ := Option.map_eq_some_iff.mp (liveRow?_eq_some_iff.mp hr).1
    obtain ⟨hmem, -, hlive⟩ := Partition.mem_cells_read.mp hc
    exact Int64.not_le.mp fun hle => h ⟨p, hp, c, hmem, hle, hlive⟩
  · rintro h ⟨p, hp, c, hmem, hle, hlive⟩
    have hread : c ∈ (p.read key Int64.maxValue).cells.entries :=
      Partition.mem_cells_read.mpr ⟨hmem, Int64.le_maxValue _, hlive⟩
    have hr : s.liveRow? key Int64.maxValue = some (p.read key Int64.maxValue) :=
      liveRow?_eq_some_iff.mpr ⟨by rw [read, hp]; rfl,
        List.isEmpty_eq_false_iff.mpr (List.ne_nil_of_mem hread)⟩
    exact Int64.not_le.mpr (h _ hr c hread) hle

/-- Reading at a time that no cell exceeds is reading everything. -/
theorem liveRow?_eq_of_le {s : Store} {key : Key} {time : Int64}
    (h : ∀ p, s.partition? key = some p → ∀ c ∈ p.cells.entries, c.timestamp ≤ time) :
    s.liveRow? key time = s.liveRow? key Int64.maxValue := by
  rw [liveRow?, liveRow?, read, read]
  cases hp : s.partition? key with
  | none => rfl
  | some p =>
    have hread : p.read key time = p.read key Int64.maxValue := by
      refine Row.ext rfl (NameMap.ext ?_)
      have hfilter (t : Int64) (ht : ∀ c ∈ p.cells.entries, c.timestamp ≤ t) :
          p.cells.entries.filter (·.timestamp ≤ t) = p.cells.entries :=
        List.filter_eq_self.mpr fun c hc => decide_eq_true (ht c hc)
      simp only [Partition.read, Row.ofMap, NameMap.filter]
      rw [hfilter time (h p hp), hfilter Int64.maxValue fun c _ => Int64.le_maxValue _]
    rw [Option.map_some, Option.map_some, hread]

end Store

end RowIndex
