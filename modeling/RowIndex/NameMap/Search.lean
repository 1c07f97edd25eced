import RowIndex.NameMap

/-!
# NameMap/Search — finding the place of a name by halving

    entries ──halve──▸ the last entry not above the name ──compare──▸ held at, or free at, an index

A name has a `Position` among entries in ascending name order: that of its own entry, or else the
one that an entry of the name would take.  `locate` halves the entries among which the place lies
until one is left, which is right only because they are in order (`Brackets.halve`, `locate_cases`).
Looking up and inserting at the place that was found are then look-up and putting
(`search?_eq_find?`, `insert_eq_put`).
-/

namespace RowIndex

/-- Where a name stands in a list of entries. -/
inductive Position where
  /-- The entry at the index has the name. -/
  | held (index : Nat)
  /-- No entry has the name, and one would stand at the index. -/
  | free (index : Nat)
  deriving DecidableEq, Repr

namespace NameMap

variable {α : Type} [Named α]

/-- Halve the `size` entries from `base` on until one is left: the last one that is not above the
name, or the first one if all are above it.  Every step leaves fewer entries, so that `size` steps
are enough. -/
def halve (name : String) (entries : List α) : (steps base size : Nat) → Nat
  | 0, base, _ => base
  | steps + 1, base, size =>
    if size ≤ 1 then base
    else
      let middle := base + size / 2
      let rest := size - size / 2
      if (entries[middle]?).any (name < Named.name ·) then halve name entries steps base rest
      else halve name entries steps middle rest

/-- The position of a name in a list of entries in ascending name order. -/
def locate (name : String) (entries : List α) : Position :=
  let index := halve name entries entries.length 0 entries.length
  match entries[index]? with
  | none => .free index
  | some e =>
    if Named.name e = name then .held index
    else if Named.name e < name then .free (index + 1)
    else .free index

/-! ## What halving finds -/

section Halving

variable {name : String} {entries : List α}

/-- The place of a name lies at the `size` entries from `base` on: unless `base` is the first of all
entries it is not above the name, and all entries behind are above it. -/
structure Brackets (name : String) (entries : List α) (base size : Nat) : Prop where
  pos : 0 < size
  le_length : base + size ≤ entries.length
  first : base ≠ 0 → ∀ e, entries[base]? = some e → Named.name e ≤ name
  behind : ∀ i e, base + size ≤ i → entries[i]? = some e → name < Named.name e

/-- In ascending order, a later index has a greater name. -/
theorem name_lt_of_index_lt (h : entries.Pairwise fun a b => Named.name a < Named.name b)
    {i j : Nat} (hij : i < j) {a b : α} (ha : entries[i]? = some a) (hb : entries[j]? = some b) :
    Named.name a < Named.name b := by
  obtain ⟨hi, rfl⟩ := List.getElem?_eq_some_iff.mp ha
  obtain ⟨hj, rfl⟩ := List.getElem?_eq_some_iff.mp hb
  exact List.pairwise_iff_getElem.mp h i j hi hj hij

/-- If the entry in the middle is above the name, the place lies before it. -/
theorem Brackets.lower (h : entries.Pairwise fun a b => Named.name a < Named.name b)
    {base size : Nat} (hb : Brackets name entries base size) (hsize : ¬size ≤ 1) {e : α}
    (he : entries[base + size / 2]? = some e) (habove : name < Named.name e) :
    Brackets name entries base (size - size / 2) where
  pos := by omega
  le_length := by have := hb.le_length; omega
  first := hb.first
  behind i a hi ha := by
    rcases Nat.lt_or_eq_of_le (show base + size / 2 ≤ i by omega) with hlt | rfl
    · exact String.lt_trans habove (name_lt_of_index_lt h hlt he ha)
    · rw [he] at ha
      exact Option.some.inj ha ▸ habove

/-- If the entry in the middle is not above the name, the place does not lie before it. -/
theorem Brackets.upper {base size : Nat} (hb : Brackets name entries base size)
    (hsize : ¬size ≤ 1) (hle : ∀ e, entries[base + size / 2]? = some e → Named.name e ≤ name) :
    Brackets name entries (base + size / 2) (size - size / 2) where
  pos := by omega
  le_length := by have := hb.le_length; omega
  first _ := hle
  behind i a hi := hb.behind i a (by omega)

/-- **Halving keeps the place of the name bracketed**, down to one entry. -/
theorem Brackets.halve (h : entries.Pairwise fun a b => Named.name a < Named.name b)
    {steps base size : Nat} (hb : Brackets name entries base size) (hsteps : size ≤ steps) :
    Brackets name entries (NameMap.halve name entries steps base size) 1 := by
  fun_induction NameMap.halve name entries steps base size with
  | case1 base size => have := hb.pos; omega
  | case2 steps base size hsize =>
    obtain rfl : size = 1 := by have := hb.pos; omega
    exact hb
  | case3 steps base size hsize middle rest habove ih =>
    obtain ⟨e, he, hlt⟩ := (Option.any_eq_true _ _).mp habove
    exact ih (hb.lower h hsize he (of_decide_eq_true hlt)) (by omega)
  | case4 steps base size hsize middle rest hnot ih =>
    refine ih (hb.upper hsize fun e he => String.not_lt.mp fun hlt => hnot ?_) (by omega)
    exact (Option.any_eq_true _ _).mpr ⟨e, he, decide_eq_true hlt⟩

/-- Halving all entries leaves the last one that is not above the name, or the first of all. -/
theorem exists_halve (h : entries.Pairwise fun a b => Named.name a < Named.name b)
    (hne : entries ≠ []) (name : String) :
    ∃ before e after, entries = before ++ e :: after ∧
      halve name entries entries.length 0 entries.length = before.length ∧
      (before ≠ [] → Named.name e ≤ name) ∧ ∀ a ∈ after, name < Named.name a := by
  have hb : Brackets name entries 0 entries.length := by
    refine ⟨List.length_pos_iff.mpr hne, by omega, nofun, fun i e hi he => ?_⟩
    obtain ⟨hlt, -⟩ := List.getElem?_eq_some_iff.mp he
    omega
  obtain ⟨-, hlt, hfirst, hbehind⟩ := hb.halve h (Nat.le_refl _)
  generalize NameMap.halve name entries entries.length 0 entries.length = index at *
  refine ⟨entries.take index, entries[index], entries.drop (index + 1), ?_, ?_, ?_, ?_⟩
  · rw [← List.drop_eq_getElem_cons, List.take_append_drop]
  · rw [List.length_take, Nat.min_eq_left (by omega)]
  · intro hbefore
    refine hfirst (fun hzero => hbefore ?_) _ (List.getElem?_eq_getElem _)
    rw [hzero, List.take_zero]
  · intro a ha
    obtain ⟨i, hi⟩ := List.mem_iff_getElem?.mp ha
    rw [List.getElem?_drop] at hi
    exact hbehind _ a (by omega) hi

/-- **The position of a name cuts the entries at the name.** -/
theorem locate_cases (h : entries.Pairwise fun a b => Named.name a < Named.name b)
    (name : String) :
    (∃ before e after, entries = before ++ e :: after ∧ Named.name e = name ∧
      (∀ a ∈ before, Named.name a < name) ∧ locate name entries = .held before.length) ∨
    ∃ before after, entries = before ++ after ∧ (∀ a ∈ before, Named.name a < name) ∧
      (∀ a ∈ after, name < Named.name a) ∧ locate name entries = .free before.length := by
  by_cases hne : entries = []
  · exact Or.inr ⟨[], [], hne, nofun, nofun, by rw [hne]; rfl⟩
  obtain ⟨before, e, after, hcut, hindex, hfirst, hafter⟩ := exists_halve h hne name
  have hbefore : ∀ a ∈ before, Named.name a < Named.name e := by
    intro a ha
    rw [hcut] at h
    exact (List.pairwise_append.mp h).2.2 a ha e List.mem_cons_self
  have he : entries[before.length]? = some e := by rw [hcut]; simp
  simp only [locate, hindex, he]
  by_cases heq : Named.name e = name
  · refine Or.inl ⟨before, e, after, hcut, heq, fun a ha => heq ▸ hbefore a ha, ?_⟩
    rw [if_pos heq]
  rw [if_neg heq]
  by_cases hlt : Named.name e < name
  · refine Or.inr ⟨before ++ [e], after, by rw [hcut, List.append_assoc]; rfl, ?_, hafter, ?_⟩
    · intro a ha
      rcases List.mem_append.mp ha with ha | ha
      · exact String.lt_trans (hbefore a ha) hlt
      · exact List.mem_singleton.mp ha ▸ hlt
    · rw [if_pos hlt, List.length_append]
      rfl
  -- Only the first entry of all can be above the name.
  have hnil : before = [] := Classical.byContradiction fun hbefore =>
    hlt (Std.lt_of_le_of_ne (hfirst hbefore) heq)
  subst hnil
  have habove : name < Named.name e := Std.lt_of_le_of_ne (String.not_lt.mp hlt) (Ne.symm heq)
  refine Or.inr ⟨[], e :: after, hcut, nofun, ?_, if_neg hlt⟩
  exact List.forall_mem_cons.mpr ⟨habove, hafter⟩

end Halving

/-! ## Looking up and inserting at a position -/

/-- The entry of a name, found by its position. -/
def search? (m : NameMap α) (name : String) : Option α :=
  match locate name m.entries with
  | .held index => m.entries[index]?
  | .free _ => none

/-- A list of entries with `new` at the position of its name, in place of the entry that has it. -/
def insertInto (new : α) (entries : List α) : List α :=
  match locate (Named.name new) entries with
  | .held index => entries.set index new
  | .free index => entries.insertIdx index new

/-- Entries of lesser names stay in front of the one that is placed. -/
theorem place_append {yields : α → Bool} {new : α} {before : List α}
    (h : ∀ a ∈ before, Named.name a < Named.name new) (after : List α) :
    place yields new (before ++ after) = before ++ place yields new after := by
  induction before with
  | nil => rfl
  | cons e before ih =>
    obtain ⟨he, hbefore⟩ := List.forall_mem_cons.mp h
    rw [List.cons_append, place, if_neg (String.lt_asymm he), if_neg (Std.ne_of_lt he).symm,
      ih hbefore, List.cons_append]

omit [Named α] in
theorem insertIdx_length_append (new : α) (before after : List α) :
    (before ++ after).insertIdx before.length new = before ++ new :: after := by
  induction before with
  | nil => rfl
  | cons e before ih => rw [List.cons_append, List.length_cons, List.insertIdx_succ_cons, ih]; rfl

/-- **Inserting at the position of a name is putting the entry in its place.** -/
theorem insertInto_eq_place {entries : List α}
    (h : entries.Pairwise fun a b => Named.name a < Named.name b) (new : α) :
    insertInto new entries = place (fun _ => true) new entries := by
  rcases locate_cases h (Named.name new) with
    ⟨before, e, after, hcut, he, hbefore, hlocate⟩ | ⟨before, after, hcut, hbefore, hafter, hlocate⟩
  · rw [insertInto, hlocate, hcut, place_append hbefore, place, if_neg (he ▸ String.lt_irrefl _),
      if_pos he.symm]
    simp
  · have hafter' : place (fun _ => true) new after = new :: after := by
      cases after with
      | nil => rfl
      | cons e after => rw [place, if_pos (hafter e List.mem_cons_self)]
    rw [insertInto, hlocate, hcut, place_append hbefore, hafter']
    exact insertIdx_length_append new before after

/-- Put an entry into the map at the position of its name. -/
def insert (m : NameMap α) (new : α) : NameMap α where
  entries := insertInto new m.entries
  ascending := by
    rw [insertInto_eq_place m.ascending]
    exact pairwise_place _ new m.ascending

theorem insert_eq_put (m : NameMap α) (new : α) : m.insert new = m.put new :=
  ext (insertInto_eq_place m.ascending new)

/-- **Searching for the position of a name finds the entry of the name.** -/
theorem search?_eq_find? (m : NameMap α) (name : String) : m.search? name = m.find? name := by
  rcases locate_cases m.ascending name with
    ⟨before, e, after, hcut, he, -, hlocate⟩ | ⟨before, after, hcut, hbefore, hafter, hlocate⟩
  · have hmem : e ∈ m.entries := by rw [hcut]; simp
    rw [find?_eq_some_iff.mpr ⟨hmem, he⟩, search?, hlocate, hcut]
    simp
  · rw [search?, hlocate, eq_comm, find?_eq_none_iff, hcut]
    intro a ha
    rcases List.mem_append.mp ha with ha | ha
    · exact Std.ne_of_lt (hbefore a ha)
    · exact (Std.ne_of_lt (hafter a ha)).symm

end NameMap

end RowIndex
