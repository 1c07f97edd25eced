/-!
# NameMap — finite maps from names, kept as lists in ascending name order

Cells, mappers and field declarations all carry their own name, and there is at most one of each
name.  A `NameMap` keeps them in strictly ascending name order, so that it has one representation
and lists its entries in order.  `find?_put` and `find?_filter` say what the two operations do to
look-ups, `mem_iff_find?` that look-up and membership are the same thing.
-/

namespace RowIndex

/-- Things that have a name. -/
class Named (α : Type) where
  /-- The name. -/
  name : α → String

/-- A name names itself. -/
instance : Named String := ⟨id⟩

/-- A finite map from names: its entries in strictly ascending order of their names. -/
structure NameMap (α : Type) [Named α] where
  /-- The entries, in order. -/
  entries : List α
  ascending : entries.Pairwise fun a b => Named.name a < Named.name b

namespace NameMap

variable {α : Type} [Named α]

theorem ext {m n : NameMap α} (h : m.entries = n.entries) : m = n := by
  cases m; cases n; cases h; rfl

instance [DecidableEq α] : DecidableEq (NameMap α) := fun m n =>
  decidable_of_iff (m.entries = n.entries) ⟨ext, fun h => h ▸ rfl⟩

/-- The map without entries. -/
def empty : NameMap α := ⟨[], .nil⟩

instance : Inhabited (NameMap α) := ⟨empty⟩

/-- The number of entries. -/
def size (m : NameMap α) : Nat := m.entries.length

/-- Whether there is no entry. -/
def isEmpty (m : NameMap α) : Bool := m.entries.isEmpty

/-- The names of the entries, in ascending order. -/
def names (m : NameMap α) : List String := m.entries.map Named.name

/-- The entry of a given name. -/
def find? (m : NameMap α) (name : String) : Option α :=
  m.entries.find? (Named.name · == name)

/-- Whether there is an entry of a given name. -/
def contains (m : NameMap α) (name : String) : Bool := (m.find? name).isSome

/-! ## Putting an entry in its place -/

/-- Put `new` where its name belongs in an ascending list; an entry of the same name stays unless
it `yields`. -/
def place (yields : α → Bool) (new : α) : List α → List α
  | [] => [new]
  | e :: rest =>
    if Named.name new < Named.name e then new :: e :: rest
    else if Named.name new = Named.name e then (if yields e then new else e) :: rest
    else e :: place yields new rest

theorem mem_of_mem_place {yields : α → Bool} {new a : α} :
    ∀ {list : List α}, a ∈ place yields new list → a = new ∨ a ∈ list
  | [], h => Or.inl (by simpa [place] using h)
  | e :: rest, h => by
    rw [place] at h
    split at h
    · simpa using h
    · split at h
      · rcases List.mem_cons.mp h with h | h
        · split at h
          · exact Or.inl h
          · exact Or.inr (h ▸ List.mem_cons_self)
        · exact Or.inr (List.mem_cons_of_mem _ h)
      · rcases List.mem_cons.mp h with h | h
        · exact Or.inr (h ▸ List.mem_cons_self)
        · exact (mem_of_mem_place h).imp id (List.mem_cons_of_mem _)

/-- **Placing keeps the order strict.** -/
theorem pairwise_place (yields : α → Bool) (new : α) :
    ∀ {list : List α}, list.Pairwise (fun a b => Named.name a < Named.name b) →
      (place yields new list).Pairwise fun a b => Named.name a < Named.name b
  | [], _ => List.pairwise_singleton _ _
  | e :: rest, h => by
    obtain ⟨he, hrest⟩ := List.pairwise_cons.mp h
    rw [place]
    split
    · rename_i hlt
      refine List.pairwise_cons.mpr ⟨fun b hb => ?_, h⟩
      rcases List.mem_cons.mp hb with rfl | hb
      · exact hlt
      · exact String.lt_trans hlt (he b hb)
    · rename_i hnot
      split
      · rename_i heq
        refine List.pairwise_cons.mpr ⟨fun b hb => ?_, hrest⟩
        split
        · exact heq ▸ he b hb
        · exact he b hb
      · rename_i hne
        refine List.pairwise_cons.mpr ⟨fun b hb => ?_, pairwise_place yields new hrest⟩
        rcases mem_of_mem_place hb with rfl | hb
        · exact Std.lt_of_le_of_ne (Std.not_lt.mp hnot) (Ne.symm hne)
        · exact he b hb

/-- Put `new` into the map; an entry of the same name stays unless it `yields`. -/
def putIf (m : NameMap α) (yields : α → Bool) (new : α) : NameMap α :=
  ⟨place yields new m.entries, pairwise_place yields new m.ascending⟩

/-- Put `new` into the map in place of any entry of the same name. -/
def put (m : NameMap α) (new : α) : NameMap α := m.putIf (fun _ => true) new

/-- The entries that satisfy `keep`. -/
def filter (m : NameMap α) (keep : α → Bool) : NameMap α :=
  ⟨m.entries.filter keep, m.ascending.filter _⟩

/-- The map of the entries of a list; of several with one name the last stays. -/
def ofList (list : List α) : NameMap α := list.foldl put empty

/-! ## Sorted lists -/

/-- Drop each entry that has the name of the last one that stayed, `kept` before all others. -/
def dropRepeats (kept : α) : List α → List α
  | [] => []
  | e :: rest =>
    if Named.name e = Named.name kept then dropRepeats kept rest else e :: dropRepeats e rest

/-- In a list that is sorted by name, no name stays twice. -/
theorem pairwise_dropRepeats {kept : α} {list : List α}
    (h : (kept :: list).Pairwise fun a b => Named.name a ≤ Named.name b) :
    (kept :: dropRepeats kept list).Pairwise fun a b => Named.name a < Named.name b := by
  induction list generalizing kept with
  | nil => exact List.pairwise_singleton _ _
  | cons e rest ih =>
    obtain ⟨hkept, htail⟩ := List.pairwise_cons.mp h
    obtain ⟨he, hrest⟩ := List.forall_mem_cons.mp hkept
    rw [dropRepeats]
    split
    · exact ih (List.pairwise_cons.mpr ⟨hrest, (List.pairwise_cons.mp htail).2⟩)
    · rename_i hne
      have hlt : Named.name kept < Named.name e := Std.lt_of_le_of_ne he (Ne.symm hne)
      have hstay := ih htail
      refine List.pairwise_cons.mpr ⟨fun b hb => ?_, hstay⟩
      rcases List.mem_cons.mp hb with rfl | hb
      · exact hlt
      · exact String.lt_trans hlt ((List.pairwise_cons.mp hstay).1 b hb)

/-- The first entry of each run of entries with one name. -/
def firsts : List α → List α
  | [] => []
  | e :: rest => e :: dropRepeats e rest

/-- The map of the first entry of each name in a list that is sorted by name. -/
def ofSorted (list : List α) (h : list.Pairwise fun a b => Named.name a ≤ Named.name b) :
    NameMap α where
  entries := firsts list
  ascending := by
    cases list with
    | nil => exact .nil
    | cons e rest => exact pairwise_dropRepeats h

/-! ## Look-ups -/

/-- Two entries of one name are one entry. -/
theorem eq_of_name_eq {list : List α}
    (h : list.Pairwise fun a b => Named.name a < Named.name b) {a b : α} (ha : a ∈ list)
    (hb : b ∈ list) (hab : Named.name a = Named.name b) : a = b := by
  induction list with
  | nil => simp at ha
  | cons e rest ih =>
    obtain ⟨he, hrest⟩ := List.pairwise_cons.mp h
    rcases List.mem_cons.mp ha with rfl | ha' <;> rcases List.mem_cons.mp hb with rfl | hb'
    · rfl
    · exact absurd (hab ▸ he b hb') (String.lt_irrefl _)
    · exact absurd (hab ▸ he a ha') (String.lt_irrefl _)
    · exact ih hrest ha' hb'

/-- **Look-up finds exactly the members.** -/
theorem find?_eq_some_iff {m : NameMap α} {name : String} {a : α} :
    m.find? name = some a ↔ a ∈ m.entries ∧ Named.name a = name := by
  constructor
  · intro h
    exact ⟨List.mem_of_find?_eq_some h, by simpa using List.find?_some h⟩
  · rintro ⟨ha, rfl⟩
    cases hf : m.find? (Named.name a) with
    | none =>
      have := List.find?_eq_none.mp hf a ha
      simp at this
    | some b =>
      have hb := List.mem_of_find?_eq_some hf
      have hn : Named.name b = Named.name a := by simpa using List.find?_some hf
      rw [eq_of_name_eq m.ascending hb ha hn]

theorem find?_eq_none_iff {m : NameMap α} {name : String} :
    m.find? name = none ↔ ∀ a ∈ m.entries, Named.name a ≠ name := by
  simp [find?, List.find?_eq_none]

/-- An entry is a member exactly if look-up under its name finds it. -/
theorem mem_iff_find? {m : NameMap α} {a : α} :
    a ∈ m.entries ↔ m.find? (Named.name a) = some a := by
  simp [find?_eq_some_iff]

/-- No name is listed twice. -/
theorem nodup_names (m : NameMap α) : m.names.Nodup := by
  refine List.pairwise_map.mpr (m.ascending.imp fun {a b} hlt heq => ?_)
  rw [heq] at hlt
  exact String.lt_irrefl _ hlt

/-- **A map is what its look-ups find.** -/
theorem eq_of_find?_eq {m n : NameMap α} (h : ∀ name, m.find? name = n.find? name) : m = n := by
  have hnodup (k : NameMap α) : k.entries.Nodup := by
    refine k.ascending.imp ?_
    rintro a b hlt rfl
    exact String.lt_irrefl _ hlt
  have hmem (a : α) : a ∈ m.entries ↔ a ∈ n.entries := by rw [mem_iff_find?, mem_iff_find?, h]
  refine ext (List.Perm.eq_of_pairwise ?_ m.ascending n.ascending
    ((List.perm_ext_iff_of_nodup (hnodup m) (hnodup n)).mpr hmem))
  intro a b _ _ hab hba
  exact (String.lt_irrefl _ (String.lt_trans hab hba)).elim

private theorem find?_place_self (yields : α → Bool) (new : α) :
    ∀ list : List α, list.Pairwise (fun a b => Named.name a < Named.name b) →
      (place yields new list).find? (Named.name · == Named.name new) =
        match list.find? (Named.name · == Named.name new) with
        | none => some new
        | some e => some (if yields e then new else e)
  | [], _ => by simp [place]
  | e :: rest, h => by
    obtain ⟨he, hrest⟩ := List.pairwise_cons.mp h
    rw [place]
    split
    · rename_i hlt
      have hne : (Named.name e == Named.name new) = false := by
        refine beq_false_of_ne fun heq => ?_
        rw [heq] at hlt
        exact String.lt_irrefl _ hlt
      have hnone : rest.find? (Named.name · == Named.name new) = none := by
        refine List.find?_eq_none.mpr fun b hb => ?_
        have hlt' := String.lt_trans hlt (he b hb)
        simp only [beq_iff_eq]
        intro heq
        rw [heq] at hlt'
        exact String.lt_irrefl _ hlt'
      simp [hne, hnone]
    · split
      · rename_i heq
        have he' : (Named.name e == Named.name new) = true := by simp [heq]
        have hif : (Named.name (if yields e then new else e) == Named.name new) = true := by
          split <;> simp [heq]
        simp only [List.find?_cons, hif, he']
      · rename_i hne
        have hne' : (Named.name e == Named.name new) = false :=
          beq_false_of_ne fun heq => hne heq.symm
        simp only [List.find?_cons, hne']
        exact find?_place_self yields new rest hrest

private theorem find?_place_other (yields : α → Bool) (new : α) {name : String}
    (hn : name ≠ Named.name new) :
    ∀ list : List α, (place yields new list).find? (Named.name · == name) =
      list.find? (Named.name · == name)
  | [] => by
    have : (Named.name new == name) = false := beq_false_of_ne fun h => hn h.symm
    simp [place, this]
  | e :: rest => by
    have hnew : (Named.name new == name) = false := beq_false_of_ne fun h => hn h.symm
    rw [place]
    split
    · simp [List.find?_cons, hnew]
    · split
      · rename_i heq
        have he : (Named.name e == name) = false := heq ▸ hnew
        split <;> simp [he, hnew]
      · simp only [List.find?_cons, find?_place_other yields new hn rest]

/-- **Look-up after putting.**  Only the name of the new entry is affected: the new entry is found
there unless an earlier one did not yield. -/
theorem find?_putIf (m : NameMap α) (yields : α → Bool) (new : α) (name : String) :
    (m.putIf yields new).find? name =
      if name = Named.name new then
        match m.find? name with
        | none => some new
        | some e => some (if yields e then new else e)
      else m.find? name := by
  split
  · rename_i h
    subst h
    exact find?_place_self yields new m.entries m.ascending
  · rename_i h
    exact find?_place_other yields new h m.entries

theorem find?_put (m : NameMap α) (new : α) (name : String) :
    (m.put new).find? name = if name = Named.name new then some new else m.find? name := by
  rw [put, find?_putIf]
  split
  · split <;> rfl
  · rfl

/-- Look-up after filtering. -/
theorem find?_filter (m : NameMap α) (keep : α → Bool) (name : String) :
    (m.filter keep).find? name = (m.find? name).filter keep := by
  cases h : m.find? name with
  | none =>
    rw [find?_eq_none_iff] at h
    exact find?_eq_none_iff.mpr fun a ha => h a (List.mem_filter.mp ha).1
  | some a =>
    obtain ⟨ha, hn⟩ := find?_eq_some_iff.mp h
    cases hk : keep a with
    | true =>
      rw [Option.filter_some, if_pos hk]
      exact find?_eq_some_iff.mpr ⟨List.mem_filter.mpr ⟨ha, hk⟩, hn⟩
    | false =>
      rw [Option.filter_some, if_neg (by simp [hk])]
      refine find?_eq_none_iff.mpr fun b hb hbn => ?_
      obtain ⟨hb, hkb⟩ := List.mem_filter.mp hb
      rw [eq_of_name_eq m.ascending hb ha (hbn.trans hn.symm), hk] at hkb
      exact Bool.false_ne_true hkb

private theorem find?_dropRepeats (kept : α) (list : List α) (name : String) :
    (kept :: dropRepeats kept list).find? (Named.name · == name) =
      (kept :: list).find? (Named.name · == name) := by
  induction list generalizing kept with
  | nil => rfl
  | cons e rest ih =>
    rw [dropRepeats]
    split
    · rename_i heq
      rw [ih, List.find?_cons, List.find?_cons, List.find?_cons, heq]
      split <;> simp [*]
    · rw [List.find?_cons, ih e]
      rfl

/-- **Look-up in the map of a sorted list** finds the first entry of the name. -/
theorem find?_ofSorted {list : List α}
    (h : list.Pairwise fun a b => Named.name a ≤ Named.name b) (name : String) :
    (ofSorted list h).find? name = list.find? (Named.name · == name) := by
  cases list with
  | nil => rfl
  | cons e rest => exact find?_dropRepeats e rest name

end NameMap

/-- A set of names. -/
abbrev NameSet := NameMap String

end RowIndex
