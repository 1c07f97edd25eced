import RowIndex.Store

/-!
# Proofs/Store/Partitions — each key has a partition of its own

Writing and purging touch the partition of one key and no other (`partition?_apply`,
`partition?_purge`).  A store lists every key once, at the token that its partitioner gives it;
this is the invariant `WellPlaced`, kept by both operations.
-/

namespace RowIndex.Store

/-! ## Places -/

@[simp] theorem bytes_place (s : Store) (bytes : Bytes) : (s.place bytes).bytes = bytes := rfl

theorem place_inj {s : Store} {a b : Bytes} : s.place a = s.place b ↔ a = b :=
  ⟨fun h => congrArg Key.bytes h, fun h => h ▸ rfl⟩

/-! ## Looking a partition up -/

theorem lookup_cons_eq (key k : Key) (p : Partition) (rest : List (Key × Partition)) :
    List.lookup key ((k, p) :: rest) = if key = k then some p else rest.lookup key := by
  rw [List.lookup_cons]
  by_cases h : key = k
  · rw [if_pos h, beq_iff_eq.mpr h]
  · rw [if_neg h, beq_false_of_ne h]

theorem lookup_assign (key : Key) (p : Partition) (other : Key) (list : List (Key × Partition)) :
    (assign key p list).lookup other = if other = key then some p else list.lookup other := by
  induction list with
  | nil => rw [assign, lookup_cons_eq]
  | cons e rest ih =>
    obtain ⟨k, q⟩ := e
    rw [assign]
    split
    · rename_i hk
      subst hk
      rw [lookup_cons_eq, lookup_cons_eq]
      split <;> rfl
    · rename_i hk
      rw [lookup_cons_eq, lookup_cons_eq, ih]
      by_cases h : other = k
      · rw [if_pos h, if_pos h, if_neg (h ▸ hk)]
      · rw [if_neg h, if_neg h]

/-- **A mutation changes the partition of its key alone.** -/
theorem partition?_apply (s : Store) (bytes : Bytes) (m : Mutation) (key : Key) :
    (s.apply bytes m).partition? key =
      if key = s.place bytes then some (((s.partition? key).getD {}).apply m)
      else s.partition? key := by
  rw [partition?, apply, lookup_assign]
  split
  · rename_i h
    rw [h]
  · rfl

theorem partition?_apply_place (s : Store) (bytes : Bytes) (m : Mutation) (b : Bytes) :
    (s.apply bytes m).partition? (s.place b) =
      if b = bytes then some (((s.partition? (s.place b)).getD {}).apply m)
      else s.partition? (s.place b) := by
  simp only [partition?_apply, place_inj]

/-- **Purging drops the partition of its key alone.** -/
theorem partition?_purge (s : Store) (bytes : Bytes) (key : Key) :
    (s.purge bytes).partition? key =
      if key = s.place bytes then none else s.partition? key := by
  rw [partition?, purge, partition?]
  generalize s.partitions = list
  induction list with
  | nil => simp
  | cons e rest ih =>
    obtain ⟨k, q⟩ := e
    rw [List.filter_cons]
    split
    · rename_i hk
      have hne : k ≠ s.place bytes := by simpa using hk
      rw [lookup_cons_eq, lookup_cons_eq, ih]
      by_cases h : key = k
      · rw [if_pos h, if_pos h, if_neg (h ▸ hne)]
      · rw [if_neg h, if_neg h]
    · rename_i hk
      have heq : k = s.place bytes := by simpa using hk
      rw [ih, lookup_cons_eq, heq]
      split <;> rfl

/-! ## Keys -/

/-- The keys that have a partition. -/
def keys (s : Store) : List Key := s.partitions.map Prod.fst

theorem keys_assign (key : Key) (p : Partition) (list : List (Key × Partition)) :
    (assign key p list).map Prod.fst =
      if key ∈ list.map Prod.fst then list.map Prod.fst else list.map Prod.fst ++ [key] := by
  induction list with
  | nil => rfl
  | cons e rest ih =>
    obtain ⟨k, q⟩ := e
    rw [assign]
    split
    · rename_i hk
      simp [hk]
    · rename_i hk
      have hk' : key ≠ k := fun h => hk h.symm
      simp only [List.map_cons, ih, List.mem_cons, hk', false_or]
      split <;> simp

/-- Every key is listed once, at the token that the partitioner gives it. -/
structure WellPlaced (s : Store) : Prop where
  nodup : s.keys.Nodup
  placed : ∀ key ∈ s.keys, key = s.place key.bytes

theorem wellPlaced_empty (p : Partitioner) : WellPlaced { partitioner := p } where
  nodup := List.nodup_nil
  placed _ h := (List.not_mem_nil h).elim

theorem WellPlaced.apply {s : Store} (h : s.WellPlaced) (bytes : Bytes) (m : Mutation) :
    (s.apply bytes m).WellPlaced := by
  have hkeys : (s.apply bytes m).keys =
      if s.place bytes ∈ s.keys then s.keys else s.keys ++ [s.place bytes] := keys_assign _ _ _
  constructor
  · rw [hkeys]
    split
    · exact h.nodup
    · rename_i hnew
      refine List.nodup_append.mpr ⟨h.nodup, List.pairwise_singleton _ _, fun a ha b hb heq => ?_⟩
      rw [List.mem_singleton] at hb
      exact hnew (hb ▸ heq ▸ ha)
  · intro key hkey
    rw [hkeys] at hkey
    split at hkey
    · exact h.placed key hkey
    · rcases List.mem_append.mp hkey with hkey | hkey
      · exact h.placed key hkey
      · rw [List.mem_singleton.mp hkey]
        rfl

theorem WellPlaced.purge {s : Store} (h : s.WellPlaced) (bytes : Bytes) :
    (s.purge bytes).WellPlaced := by
  have hsub : (s.purge bytes).keys.Sublist s.keys := List.filter_sublist.map _
  exact ⟨h.nodup.sublist hsub, fun key hkey => h.placed key (hsub.subset hkey)⟩

/-- A change to a store. -/
inductive Edit where
  /-- Apply a mutation to a partition. -/
  | apply (bytes : Bytes) (m : Mutation)
  /-- Drop a partition. -/
  | purge (bytes : Bytes)

/-- The store after a change. -/
def edit (s : Store) : Edit → Store
  | .apply bytes m => s.apply bytes m
  | .purge bytes => s.purge bytes

/-- The store of a partitioner after a list of changes. -/
def ofEdits (p : Partitioner) (edits : List Edit) : Store := edits.foldl edit { partitioner := p }

/-- **Changes keep a store well placed**, under its partitioner. -/
theorem wellPlaced_ofEdits (p : Partitioner) (edits : List Edit) :
    (ofEdits p edits).partitioner = p ∧ (ofEdits p edits).WellPlaced := by
  have hfoldl {s : Store} (hs : s.WellPlaced) :
      (edits.foldl edit s).partitioner = s.partitioner ∧ (edits.foldl edit s).WellPlaced := by
    induction edits generalizing s with
    | nil => exact ⟨rfl, hs⟩
    | cons e rest ih =>
      cases e with
      | apply bytes m => exact ih (hs.apply bytes m)
      | purge bytes => exact ih (hs.purge bytes)
  exact hfoldl (wellPlaced_empty p)

/-- In a well-placed store, the listed partitions are those that are looked up. -/
theorem WellPlaced.mem_iff {s : Store} (h : s.WellPlaced) {key : Key} {p : Partition} :
    (key, p) ∈ s.partitions ↔ s.partition? key = some p := by
  have hnodup := h.nodup
  rw [keys] at hnodup
  rw [partition?]
  generalize s.partitions = list at hnodup
  induction list with
  | nil => simp
  | cons e rest ih =>
    obtain ⟨k, q⟩ := e
    obtain ⟨hk, hrest⟩ := List.nodup_cons.mp hnodup
    rw [lookup_cons_eq, List.mem_cons]
    split
    · rename_i heq
      subst heq
      have hnot : (key, p) ∉ rest := fun hmem =>
        hk (List.mem_map.mpr ⟨_, hmem, rfl⟩)
      simp [hnot, eq_comm]
    · rename_i heq
      simp [heq, ih hrest]

end RowIndex.Store
