import RowIndex.Proofs.Service.Run

/-!
# Proofs/Service/LateMutation — what a mutation that arrives late does to the index

A step applies a mutation of one time and brings its row up to date as of that time, which hides
whatever is newer.  So a step *restores* the document of its row if the row as of its time is live
and can be mapped, and *drops* it if it deletes something and every live cell is newer.

    put k @10 ── restores ──▸ one document ── wipe k @5 drops ──▸ none, though k is live

A key has its one document exactly if a step restored it and no later one dropped it
(`length_documentsOf_writes`).  The newest step of a key, if it comes last, always settles its
document (`documentsOf_of_newest`).
-/

namespace RowIndex.Service

/-! ## Steps of one time -/

/-- A mutation of a row, all of it of one time. -/
structure TimedWrite where
  /-- The key. -/
  bytes : Bytes
  /-- The mutation. -/
  mutation : Mutation
  /-- The time of its deletion and of its cells. -/
  time : Int64
  deletion_at : ∀ d ∈ mutation.deletion, d.markedAt = time
  cells_at : ∀ c ∈ mutation.cells, c.timestamp = time

/-- The service after a step: its mutation is applied, and its row is brought up to date as of its
time. -/
def write (s : Service ScanIndex) (w : TimedWrite) : Service ScanIndex :=
  (s.call (.apply w.bytes w.mutation)).call (.reindex w.bytes w.mutation w.time)

/-- The service after a list of steps. -/
def writes (s : Service ScanIndex) (ws : List TimedWrite) : Service ScanIndex := ws.foldl write s

theorem writes_cons (s : Service ScanIndex) (w : TimedWrite) (ws : List TimedWrite) :
    s.writes (w :: ws) = (s.write w).writes ws := rfl

theorem writes_append (s : Service ScanIndex) (before after : List TimedWrite) :
    s.writes (before ++ after) = (s.writes before).writes after := List.foldl_append

/-- After its step, the row as of its time is live and has a document. -/
def Restores (s : Service ScanIndex) (w : TimedWrite) : Prop :=
  ∃ r d, s.store.liveRow? (s.store.place w.bytes) w.time = some r ∧ s.document r = .ok d

/-- The step deletes something, and after it every live cell of its row is newer. -/
def Drops (s : Service ScanIndex) (w : TimedWrite) : Prop :=
  w.mutation.isDeletion = true ∧
    ∀ r, s.store.liveRow? (s.store.place w.bytes) Int64.maxValue = some r →
      ∀ c ∈ r.cells.entries, w.time < c.timestamp

/-- No step drops the document of the key. -/
def Undropped (s : Service ScanIndex) (bytes : Bytes) : List TimedWrite → Prop
  | [] => True
  | w :: rest =>
    ¬ (w.bytes = bytes ∧ (s.write w).Drops w) ∧ (s.write w).Undropped bytes rest

/-- Some step restores the document of the key, and no later one drops it. -/
def Retained (s : Service ScanIndex) (bytes : Bytes) : List TimedWrite → Prop
  | [] => False
  | w :: rest =>
    (w.bytes = bytes ∧ (s.write w).Restores w ∧ (s.write w).Undropped bytes rest) ∨
      (s.write w).Retained bytes rest

/-- After a step that drops a document, the row as of its time is gone. -/
theorem Drops.liveRow?_eq_none {s : Service ScanIndex} {w : TimedWrite} (h : s.Drops w) :
    s.store.liveRow? (s.store.place w.bytes) w.time = none :=
  Store.liveRow?_eq_none_iff.mpr h.2

/-- What drops a document does not restore it. -/
theorem Drops.not_restores {s : Service ScanIndex} {w : TimedWrite} (h : s.Drops w) :
    ¬ s.Restores w := by
  rintro ⟨r, d, hrow, -⟩
  rw [h.liveRow?_eq_none] at hrow
  contradiction

/-! ## One step -/

section Step

variable {s : Service ScanIndex} (hs : s.Sound) (w : TimedWrite)

include hs

theorem Sound.write : (s.write w).Sound ∧ s.Agrees (s.write w) := by
  obtain ⟨happlied, hagrees⟩ := hs.call (.apply w.bytes w.mutation)
  obtain ⟨hsound, hagrees'⟩ := happlied.call (.reindex w.bytes w.mutation w.time)
  exact ⟨hsound, hagrees.trans hagrees'⟩

theorem Sound.store_write : (s.write w).store = s.store.apply w.bytes w.mutation := by
  rw [Service.write, store_call_reindex (hs.call (.apply w.bytes w.mutation)).1.toOpened]
  rfl

/-- A step settles the documents of its key by the row as of its time. -/
theorem Sound.documentsOf_write_eq :
    (s.write w).documentsOf w.bytes =
      match (s.write w).store.liveRow? ((s.write w).store.place w.bytes) w.time with
      | some r =>
        match (s.write w).document r with
        | .ok d => [d]
        | .error _ => s.documentsOf w.bytes
      | none => if w.mutation.isDeletion then [] else s.documentsOf w.bytes := by
  obtain ⟨happlied, -⟩ := hs.call (.apply w.bytes w.mutation)
  have hagrees : (s.call (.apply w.bytes w.mutation)).Agrees (s.write w) := (happlied.call _).2
  have hstore : (s.write w).store = (s.call (.apply w.bytes w.mutation)).store :=
    store_call_reindex happlied.toOpened
  have hdocuments : (s.write w).documentsOf w.bytes = _ :=
    happlied.documentsOf_reindex w.bytes w.mutation w.time w.bytes
  rw [if_pos rfl, ← hstore] at hdocuments
  simp only [← hagrees.document] at hdocuments
  exact hdocuments

/-- **A step restores the document of its key, drops it, or leaves it alone.** -/
theorem Sound.documentsOf_write :
    (∃ r d, (s.write w).store.liveRow? ((s.write w).store.place w.bytes) w.time = some r ∧
      (s.write w).document r = .ok d ∧ (s.write w).documentsOf w.bytes = [d]) ∨
    ((s.write w).Drops w ∧ (s.write w).documentsOf w.bytes = []) ∨
    (¬ (s.write w).Restores w ∧ ¬ (s.write w).Drops w ∧
      (s.write w).documentsOf w.bytes = s.documentsOf w.bytes) := by
  have hdocuments := hs.documentsOf_write_eq w
  rcases hrow : (s.write w).store.liveRow? ((s.write w).store.place w.bytes) w.time with _ | r
  · rw [hrow] at hdocuments
    by_cases hm : w.mutation.isDeletion = true
    · have hdrops : (s.write w).Drops w := ⟨hm, Store.liveRow?_eq_none_iff.mp hrow⟩
      exact Or.inr (Or.inl ⟨hdrops, hdocuments.trans (if_pos hm)⟩)
    · refine Or.inr (Or.inr ⟨?_, fun hdrops => hm hdrops.1, hdocuments.trans (if_neg hm)⟩)
      rintro ⟨r, d, hlive, -⟩
      exact Option.some_ne_none r (hlive.symm.trans hrow)
  · rw [hrow] at hdocuments
    rcases hd : (s.write w).document r with e | d
    · have hkept : ¬ (s.write w).Drops w := fun hdrops =>
        Option.some_ne_none r (hrow.symm.trans hdrops.liveRow?_eq_none)
      simp only [hd] at hdocuments
      refine Or.inr (Or.inr ⟨?_, hkept, hdocuments⟩)
      rintro ⟨r', d, hlive, hd'⟩
      obtain rfl : r = r' := Option.some.inj (hrow.symm.trans hlive)
      rw [hd] at hd'
      contradiction
    · simp only [hd] at hdocuments
      exact Or.inl ⟨r, d, rfl, hd, hdocuments⟩

/-- A step leaves the documents of other keys alone. -/
theorem Sound.documentsOf_write_of_ne {bytes : Bytes} (h : bytes ≠ w.bytes) :
    (s.write w).documentsOf bytes = s.documentsOf bytes := by
  have hdocuments := (hs.call (.apply w.bytes w.mutation)).1.documentsOf_reindex w.bytes w.mutation
    w.time bytes
  exact hdocuments.trans (if_neg h)

end Step

theorem Sound.writes {s : Service ScanIndex} (hs : s.Sound) (ws : List TimedWrite) :
    (s.writes ws).Sound ∧ s.Agrees (s.writes ws) :=
  Sound.foldl (fun _ w hs _ => hs.write w) hs

/-! ## A whole history -/

/-- A key has one document after a history if it is retained, or had one that no step dropped. -/
theorem Sound.length_documentsOf_from {s : Service ScanIndex} (hs : s.Sound)
    (ws : List TimedWrite) (bytes : Bytes) :
    ((s.writes ws).documentsOf bytes).length = 1 ↔
      s.Retained bytes ws ∨ ((s.documentsOf bytes).length = 1 ∧ s.Undropped bytes ws) := by
  induction ws generalizing s with
  | nil => simp [Service.writes, Retained, Undropped]
  | cons w rest ih =>
    rw [writes_cons, ih (hs.write w).1, Retained, Undropped]
    by_cases hb : bytes = w.bytes
    · subst hb
      rcases hs.documentsOf_write w with
        ⟨r, d, hrow, hd, hdocuments⟩ | ⟨hdrops, hdocuments⟩ | ⟨hnot, hkept, hdocuments⟩
      · have hrestores : (s.write w).Restores w := ⟨r, d, hrow, hd⟩
        have hkept : ¬ (s.write w).Drops w := fun h => h.not_restores hrestores
        simp only [hdocuments, hrestores, hkept, List.length_singleton, true_and, and_false,
          not_false_eq_true]
        constructor
        · exact fun h => Or.inl h.symm
        · rintro (h | ⟨-, h⟩)
          · exact h.symm
          · exact Or.inr h
      · simp [hdocuments, hdrops, hdrops.not_restores]
      · simp [hdocuments, hnot, hkept]
    · have hne : w.bytes ≠ bytes := fun h => hb h.symm
      simp [hs.documentsOf_write_of_ne w hb, hne]

/-- **A key has its one document exactly if a step restored it and no later one dropped it.** -/
theorem length_documentsOf_writes {d : Definition} {t : Table} {p : Partitioner}
    {s : Service ScanIndex} (hopen : openScan d t { partitioner := p } = .ok s)
    (ws : List TimedWrite) (bytes : Bytes) :
    ((s.writes ws).documentsOf bytes).length = 1 ↔ s.Retained bytes ws := by
  have hs := sound_openScan hopen (Store.wellPlaced_empty p)
  rw [hs.length_documentsOf_from, documentsOf_openScan hopen, List.length_nil]
  exact ⟨fun h => h.resolve_right fun h => absurd h.1 Nat.zero_ne_one, Or.inl⟩

/-- A row is put back after a late deletion dropped its document. -/
theorem length_documentsOf_after_second_write :
    let history : List TimedWrite :=
      [⟨[1], sampleWrite 7 10, 10, by decide, by decide⟩,
        ⟨[1], { deletion := some ⟨5⟩ }, 5, by decide, by decide⟩,
        ⟨[1], sampleWrite 8 12, 12, by decide, by decide⟩]
    openScan sampleDefinition sampleTable { partitioner := .byteOrdered } = .ok sample ∧
      ((sample.writes history).documentsOf [1]).length = 1 := by
  intro history
  refine ⟨openScan_sample, (length_documentsOf_writes openScan_sample history [1]).mpr ?_⟩
  refine Or.inr (Or.inr (Or.inl ⟨rfl, ?_, trivial⟩))
  refine ⟨.ofMap ⟨.byteOrdered [1], [1]⟩ (.ofList [⟨"n", some (.int 8), 12⟩]),
    ⟨[⟨tokenField, .keyword "01"⟩, ⟨keyField, .keyword "01"⟩, ⟨"n", .long 8⟩]⟩, ?_, ?_⟩ <;>
    decide +kernel

/-- A deletion that arrives late drops the document of a row that stays live. -/
theorem documentsOf_after_late_deletion :
    let history : List TimedWrite :=
      [⟨[1], sampleWrite 7 10, 10, by decide, by decide⟩,
        ⟨[1], { deletion := some ⟨5⟩ }, 5, by decide, by decide⟩]
    ∃ s r d, openScan sampleDefinition sampleTable { partitioner := .byteOrdered } = .ok s ∧
      (s.writes history).store.read ((s.writes history).store.place [1]) Int64.maxValue = some r ∧
      r.isEmpty = false ∧ (s.writes history).document r = .ok d ∧
      (s.writes history).documentsOf [1] = [] := by
  refine ⟨sample, .ofMap ⟨.byteOrdered [1], [1]⟩ (.ofList [⟨"n", some (.int 7), 10⟩]),
    ⟨[⟨tokenField, .keyword "01"⟩, ⟨keyField, .keyword "01"⟩, ⟨"n", .long 7⟩]⟩, openScan_sample,
    ?_, ?_, ?_, ?_⟩ <;> decide +kernel

/-! ## Mutations that arrive in order -/

/-- Steps of other keys change neither the partition of a key nor its documents. -/
theorem Sound.writes_of_forall_ne {s : Service ScanIndex} (hs : s.Sound) {ws : List TimedWrite}
    {bytes : Bytes} (h : ∀ w ∈ ws, w.bytes ≠ bytes) :
    (s.writes ws).store.partition? (s.store.place bytes) =
        s.store.partition? (s.store.place bytes) ∧
      (s.writes ws).documentsOf bytes = s.documentsOf bytes := by
  induction ws generalizing s with
  | nil => exact ⟨rfl, rfl⟩
  | cons w rest ih =>
    obtain ⟨hw, hrest⟩ := List.forall_mem_cons.mp h
    obtain ⟨hsound, hagrees⟩ := hs.write w
    obtain ⟨hpartition, hdocuments⟩ := ih hsound hrest
    rw [hagrees.place, hs.store_write, Store.partition?_apply_place, if_neg hw.symm] at hpartition
    exact ⟨hpartition, hdocuments.trans (hs.documentsOf_write_of_ne w hw.symm)⟩

/-- The cells of a row after a step are of its time, or were there before. -/
theorem Sound.mem_cells_write {s : Service ScanIndex} (hs : s.Sound) {w : TimedWrite}
    {bytes : Bytes} {p : Partition}
    (hp : (s.write w).store.partition? (s.store.place bytes) = some p) {c : Cell}
    (hc : c ∈ p.cells.entries) :
    (w.bytes = bytes ∧ c.timestamp = w.time) ∨
      ∃ q, s.store.partition? (s.store.place bytes) = some q ∧ c ∈ q.cells.entries := by
  rw [hs.store_write, Store.partition?_apply_place] at hp
  by_cases hb : bytes = w.bytes
  · rw [if_pos hb, Option.some.injEq] at hp
    rw [← hp] at hc
    rcases Partition.mem_cells_apply hc with hc | hc
    · exact Or.inl ⟨hb.symm, w.cells_at c hc⟩
    · rcases hold : s.store.partition? (s.store.place bytes) with _ | q
      · rw [hold] at hc
        exact (List.not_mem_nil hc).elim
      · rw [hold] at hc
        exact Or.inr ⟨q, rfl, hc⟩
  · rw [if_neg hb] at hp
    exact Or.inr ⟨p, hp, hc⟩

/-- The cells of a row carry the times of the steps that wrote them. -/
theorem Sound.mem_cells_writes {s : Service ScanIndex} (hs : s.Sound) {ws : List TimedWrite}
    {bytes : Bytes} {p : Partition}
    (hp : (s.writes ws).store.partition? (s.store.place bytes) = some p) {c : Cell}
    (hc : c ∈ p.cells.entries) :
    (∃ w ∈ ws, w.bytes = bytes ∧ c.timestamp = w.time) ∨
      ∃ q, s.store.partition? (s.store.place bytes) = some q ∧ c ∈ q.cells.entries := by
  induction ws generalizing s with
  | nil => exact Or.inr ⟨p, hp, hc⟩
  | cons w rest ih =>
    obtain ⟨hsound, hagrees⟩ := hs.write w
    rw [← hagrees.place] at hp
    rcases ih hsound hp with ⟨v, hv, hfrom⟩ | ⟨q, hq, hc⟩
    · exact Or.inl ⟨v, List.mem_cons_of_mem _ hv, hfrom⟩
    · rw [hagrees.place] at hq
      exact (hs.mem_cells_write hq hc).imp_left fun hfrom => ⟨w, List.mem_cons_self, hfrom⟩

/-- After the newest step of a key, all its cells are as old as that step or older. -/
theorem Sound.timestamp_le_of_newest {s : Service ScanIndex} (hs : s.Sound) {p : Partitioner}
    (hstore : s.store = { partitioner := p }) {before : List TimedWrite} {w : TimedWrite}
    (hnewest : ∀ v ∈ before, v.bytes = w.bytes → v.time ≤ w.time) {q : Partition}
    (hq : ((s.writes before).write w).store.partition? (s.store.place w.bytes) = some q) {c : Cell}
    (hc : c ∈ q.cells.entries) : c.timestamp ≤ w.time := by
  have hwrites : (s.writes before).write w = s.writes (before ++ [w]) := by
    rw [writes_append]
    rfl
  rw [hwrites] at hq
  rcases hs.mem_cells_writes hq hc with ⟨v, hv, hb, ht⟩ | ⟨q, hq, -⟩
  · rw [ht]
    rcases List.mem_append.mp hv with hv | hv
    · exact hnewest v hv hb
    · rw [List.mem_singleton.mp hv]
      exact Int64.le_refl _
  · rw [hstore] at hq
    contradiction

/-- **The newest step of a key settles its document, if it comes last**: the row as of its time is
the whole row. -/
theorem documentsOf_of_newest {d : Definition} {t : Table} {p : Partitioner}
    {s : Service ScanIndex} (hopen : openScan d t { partitioner := p } = .ok s)
    {before after : List TimedWrite} {w : TimedWrite}
    (hnewest : ∀ v ∈ before, v.bytes = w.bytes → v.time ≤ w.time)
    (hlast : ∀ v ∈ after, v.bytes ≠ w.bytes) {r : Row} {doc : Document}
    (hrow : (s.writes (before ++ w :: after)).store.liveRow? (s.store.place w.bytes)
      Int64.maxValue = some r) (hdoc : s.document r = .ok doc) :
    (s.writes (before ++ w :: after)).documentsOf w.bytes = [doc] := by
  have hs := sound_openScan hopen (Store.wellPlaced_empty p)
  obtain ⟨hbefore, hagrees⟩ := hs.writes before
  obtain ⟨hsound, hagrees'⟩ := hbefore.write w
  have hplace := (hagrees.trans hagrees').place w.bytes
  have hdocument := (hagrees.trans hagrees').document r
  obtain ⟨hpartition, hdocuments⟩ := hsound.writes_of_forall_ne hlast
  rw [hplace] at hpartition
  rw [writes_append, writes_cons] at hrow ⊢
  -- Nothing is newer than the step, so the row as of its time is the whole row.
  rw [Store.liveRow?_congr hpartition, ← Store.liveRow?_eq_of_le fun q hq c hc =>
    hs.timestamp_le_of_newest (store_openScan hopen) hnewest hq hc] at hrow
  rw [hdocuments]
  rcases hbefore.documentsOf_write w with ⟨r', d', hrow', hd', heq⟩ | ⟨hdrops, -⟩ | ⟨hnot, -, -⟩
  · rw [hplace, hrow, Option.some.injEq] at hrow'
    rw [← hrow', hdocument, hdoc, Except.ok.injEq] at hd'
    rw [heq, hd']
  · have hgone := hdrops.liveRow?_eq_none
    rw [hplace, hrow] at hgone
    contradiction
  · exact (hnot ⟨r, doc, hplace ▸ hrow, hdocument.trans hdoc⟩).elim

end RowIndex.Service
