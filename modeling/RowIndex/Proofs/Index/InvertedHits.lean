import Mathlib.Data.List.Nodup
import RowIndex.Index.Inverted
import RowIndex.Proofs.Index.Bindings

/-!
# Proofs/Index/InvertedHits — what the inverted index finds

What is loaded of a document holds the values of its stored and sortable fields
(`values_loadFields`).  A search finds visible documents only (`mem_of_best`), and one with room for
all of them finds what its plan selects (`exists_best_of_plan`).
-/

namespace RowIndex

/-! ## What is loaded -/

/-- Fields that are added name by name are found under their names. -/
theorem Document.values_flatMap {fields : String → List Field}
    (h : ∀ name, ∀ f ∈ fields name, f.name = name) (names : NameSet) (name : String) :
    values ⟨names.entries.flatMap fields⟩ name =
      if name ∈ names.entries then (fields name).map Field.value else [] := by
  have hself : values ⟨fields name⟩ name = (fields name).map Field.value := by
    rw [values, List.filter_eq_self.mpr fun f hf => beq_iff_eq.mpr (h name f hf)]
  have hother {other : String} (hne : other ≠ name) : values ⟨fields other⟩ name = [] := by
    rw [values, List.filter_eq_nil_iff.mpr fun f hf => ?_, List.map_nil]
    rw [h other f hf]
    simpa using hne
  have hnodup : names.entries.Nodup := names.nodup_names.of_map
  generalize names.entries = list at hnodup
  induction list with
  | nil => rfl
  | cons other rest ih =>
    obtain ⟨hnot, hrest⟩ := List.nodup_cons.mp hnodup
    have happend : values ⟨(other :: rest).flatMap fields⟩ name =
        values ⟨fields other⟩ name ++ values ⟨rest.flatMap fields⟩ name := by
      rw [values, List.flatMap_cons, List.filter_append, List.map_append]
      rfl
    rw [happend, ih hrest]
    by_cases hname : other = name
    · subst hname
      rw [hself, if_neg hnot, if_pos List.mem_cons_self, List.append_nil]
    · rw [hother hname, List.nil_append]
      simp only [List.mem_cons, Ne.symm hname, false_or]

namespace InvertedIndex

variable {ix : InvertedIndex} {declared : Declarations}

/-- A value of a field's kind is loaded as it was stored. -/
theorem recast_of_kind {spec : FieldSpec} {v : FieldValue} (h : v.kind = spec.kind) :
    spec.bound.recast v = v := by
  rw [BoundField.recast, FieldSpec.bound, ← h]
  cases v <;> rfl

section Loading

variable (hserve : ix.bindings.Serve declared)

include hserve

theorem name_of_mem_loadField {d : Document} {name : String} {f : Field}
    (hf : f ∈ ix.loadField d name) : f.name = name := by
  rw [loadField, hserve name] at hf
  cases hfind : declared.find? name with
  | none =>
    rw [hfind] at hf
    exact (List.not_mem_nil hf).elim
  | some spec =>
    rw [hfind] at hf
    change f ∈ spec.bound.load d at hf
    rw [BoundField.load] at hf
    split at hf
    · obtain ⟨v, -, rfl⟩ := List.mem_map.mp hf
      exact (NameMap.find?_eq_some_iff.mp hfind).2
    · exact (List.not_mem_nil hf).elim

theorem map_value_loadField {d : Document} (hd : declared.check d = .ok ()) {name : String}
    {spec : FieldSpec} (hspec : declared.find? name = some spec) :
    (ix.loadField d name).map Field.value =
      if spec.stored || spec.sortable then d.values name else [] := by
  have hname : spec.name = name := (NameMap.find?_eq_some_iff.mp hspec).2
  rw [loadField, hserve name, hspec]
  change (spec.bound.load d).map Field.value = _
  rw [BoundField.load, FieldSpec.name_bound, hname]
  change (if (spec.stored || spec.sortable) = true then _ else _ : List Field).map _ = _
  split
  · rw [List.map_map]
    refine (List.map_congr_left fun v hv => ?_).trans (List.map_id _)
    exact recast_of_kind (Declarations.kind_of_check hd hspec hv)
  · rfl

/-- **Stored and sortable fields are loaded with their values.** -/
theorem values_loadFields {d : Document} (hd : declared.check d = .ok ()) {name : String}
    {spec : FieldSpec} (hspec : declared.find? name = some spec) {names : NameSet}
    (hname : name ∈ names.entries) (hstored : (spec.stored || spec.sortable) = true) :
    (ix.loadFields names d).values name = d.values name := by
  rw [loadFields, Document.values_flatMap (fun _ _ => name_of_mem_loadField hserve), if_pos hname,
    map_value_loadField hserve hd hspec, if_pos hstored]

end Loading

theorem mem_needed {s : Search} {name : String} :
    name ∈ (needed s).entries ↔ name ∈ s.order.fields ∨ name ∈ s.load.entries :=
  NameMap.mem_foldl_put_names

/-! ## What is found -/

/-- What is selected does not depend on the order in which documents are held. -/
theorem perm_selected (ix : InvertedIndex) (plan : Plan) :
    (ix.selected plan).Perm (ix.visible.filter (ix.engine.selects plan)) :=
  (ix.engine.arrange_perm ix.visible).filter _

/-- Plans that select the same of what is visible select the same. -/
theorem selected_congr {plan plan' : Plan}
    (h : ∀ d ∈ ix.visible, ix.engine.selects plan d = ix.engine.selects plan' d) :
    ix.selected plan = ix.selected plan' :=
  List.filter_congr fun d hd => h d ((ix.engine.arrange_perm ix.visible).mem_iff.mp hd)

theorem mem_of_mem_collect {plan : Plan} {order : SortOrder} {limit : Nat} {d : Document}
    (h : d ∈ ix.collect plan order limit) : d ∈ ix.visible := by
  have hselected : d ∈ ix.selected plan := by
    rw [collect] at h
    split at h
    · exact List.mem_mergeSort.mp (List.mem_of_mem_take h)
    · exact List.mem_mergeSort.mp (List.mem_of_mem_take h)
    · exact List.mem_mergeSort.mp h
  exact (List.mem_filter.mp ((ix.perm_selected plan).mem_iff.mp hselected)).1

theorem perm_collect {plan : Plan} {limit : Nat} (order : SortOrder)
    (h : (ix.selected plan).length ≤ limit) :
    (ix.collect plan order limit).Perm (ix.selected plan) := by
  have htake {sorted : List Document} (hsorted : sorted.Perm (ix.selected plan)) :
      (sorted.take limit).Perm (ix.selected plan) := by
    rw [List.take_of_length_le (hsorted.length_eq ▸ h)]
    exact hsorted
  rw [collect]
  split
  · exact htake (List.mergeSort_perm _ _)
  · exact htake (List.mergeSort_perm _ _)
  · exact List.mergeSort_perm _ _

/-- **A search finds visible documents only**, and loads what it needs of them. -/
theorem mem_of_best {s : Search} {found : List (Document × Hit)} (h : ix.best s = .ok found)
    {f : Document × Hit} (hf : f ∈ found) :
    f.1 ∈ ix.visible ∧ f.2.document = ix.loadFields (needed s) f.1 := by
  rw [best] at h
  split at h
  · obtain rfl := Except.ok.inj h
    exact (List.not_mem_nil hf).elim
  · obtain ⟨plan, -, h⟩ := bind_eq_ok_iff.mp h
    obtain rfl := Except.ok.inj h
    obtain ⟨d, hd, rfl⟩ := List.mem_map.mp (List.mem_mergeSort.mp (List.mem_of_mem_take hf))
    exact ⟨mem_of_mem_collect hd, rfl⟩

/-- The hits of a search carry those of the loaded fields that it asks for. -/
theorem search_of_best {s : Search} {found : List (Document × Hit)} (h : ix.best s = .ok found) :
    ix.search s =
      .ok (found.map fun f => { f.2 with document := f.2.document.project s.load }) := by
  rw [search, h]
  rfl

/-- **A search that has a plan succeeds.** -/
theorem exists_best {s : Search} {plan : Plan} (hplan : Plan.ofSearch ix.bindings s = .ok plan) :
    ∃ found, ix.best s = .ok found := by
  by_cases hnone : s.limit = 0 ∨ ix.visible = []
  · exact ⟨[], if_pos hnone⟩
  · exact ⟨_, by rw [best, if_neg hnone, hplan]; rfl⟩

/-- **A search with room for all documents finds those that its plan selects.** -/
theorem exists_best_of_plan {s : Search} {plan : Plan}
    (hplan : Plan.ofSearch ix.bindings s = .ok plan) (hlimit : ix.visible.length ≤ s.limit) :
    ∃ found, ix.best s = .ok found ∧
      (found.map Prod.fst).Perm (ix.visible.filter (ix.engine.selects plan)) := by
  by_cases hnone : s.limit = 0 ∨ ix.visible = []
  · have hempty : ix.visible = [] := hnone.elim
      (fun h0 => List.eq_nil_of_length_eq_zero (Nat.le_zero.mp (h0 ▸ hlimit))) id
    exact ⟨[], if_pos hnone, hempty ▸ .nil⟩
  · refine ⟨_, by rw [best, if_neg hnone, hplan]; rfl, ?_⟩
    have hselected : (ix.selected plan).length ≤ s.limit :=
      Nat.le_trans ((ix.perm_selected plan).length_eq ▸ List.length_filter_le _ _) hlimit
    have hcollect := perm_collect s.order hselected
    have hsorted := List.mergeSort_perm
      ((ix.collect plan s.order s.limit).map (ix.loaded s plan))
      fun a b => (s.order.order a.2 b.2).isLE
    have hlength : (ix.collect plan s.order s.limit).length ≤ s.limit :=
      hcollect.length_eq ▸ hselected
    rw [List.take_of_length_le (by rwa [hsorted.length_eq, List.length_map])]
    refine (hsorted.map Prod.fst).trans ?_
    rw [List.map_map]
    exact .trans (.of_eq (List.map_id _)) (hcollect.trans (ix.perm_selected plan))

/-- A search for all documents finds all that are visible. -/
theorem exists_best_all {s : Search} (hquery : s.query = .all) (hfilter : s.filter = none)
    (hlimit : ix.visible.length ≤ s.limit) :
    ∃ found, ix.best s = .ok found ∧ (found.map Prod.fst).Perm ix.visible := by
  have hplan : Plan.ofSearch ix.bindings s = .ok .all := by
    rw [Plan.ofSearch, hquery, hfilter, Plan.ofQuery]
    rfl
  have hall : ix.visible.filter (ix.engine.selects .all) = ix.visible :=
    List.filter_eq_self.mpr fun d _ => ix.engine.selects_all d
  obtain ⟨found, hbest, hperm⟩ := exists_best_of_plan hplan hlimit
  exact ⟨found, hbest, hall ▸ hperm⟩

end InvertedIndex

end RowIndex
