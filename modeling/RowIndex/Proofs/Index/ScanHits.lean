import RowIndex.Index.Scan

/-!
# Proofs/Index/ScanHits — what the scanned index finds

The hits of a query are the documents that pass the filter and have a score (`mem_hits`), each once,
so whatever holds between any two documents holds between any two hits (`pairwise_hits`).
Cutting a hit down to some names keeps the values of those names (`values_project`).
-/

namespace RowIndex

namespace ScanIndex

variable {ix : ScanIndex} {query : Query} {filter : Option Query}

/-- **The hits are the documents that pass the filter and have a score.** -/
theorem mem_hits {hit : Hit} :
    hit ∈ ix.hits query filter ↔
      hit.document ∈ ix.documents ∧
        filter.all (fun f => (f.score hit.document).isSome) = true ∧
        query.score hit.document = some hit.score := by
  rw [hits, List.mem_filterMap]
  constructor
  · rintro ⟨d, hd, hscore⟩
    obtain ⟨score, hs, rfl⟩ := Option.map_eq_some_iff.mp hscore
    obtain ⟨hmem, hpass⟩ := List.mem_filter.mp hd
    exact ⟨hmem, hpass, hs⟩
  · rintro ⟨hmem, hpass, hs⟩
    exact ⟨hit.document, List.mem_filter.mpr ⟨hmem, hpass⟩, by rw [hs]; rfl⟩

/-- Two hits are related as their documents are. -/
theorem pairwise_hits {R : Document → Document → Prop} (h : ix.documents.Pairwise R) :
    (ix.hits query filter).Pairwise fun a b => R a.document b.document := by
  refine List.pairwise_filterMap.mpr ((h.filter _).imp fun hR a ha b hb => ?_)
  obtain ⟨_, -, rfl⟩ := Option.map_eq_some_iff.mp ha
  obtain ⟨_, -, rfl⟩ := Option.map_eq_some_iff.mp hb
  exact hR

/-- The documents of the hits, in their order. -/
theorem map_document_hits :
    (ix.hits query filter).map Hit.document =
      ix.documents.filter fun d =>
        (query.score d).isSome && filter.all fun f => (f.score d).isSome := by
  have hscored : (fun d => ((query.score d).map fun score => Hit.mk d score).map Hit.document) =
      Option.guard fun d => (query.score d).isSome := by
    funext d
    cases h : query.score d <;> simp [Option.guard, h]
  rw [hits, List.map_filterMap, hscored, List.filterMap_eq_filter, List.filter_filter]

theorem length_hits :
    (ix.hits query filter).length =
      ix.documents.countP fun d =>
        (query.score d).isSome && filter.all fun f => (f.score d).isSome := by
  rw [hits, List.length_filterMap_eq_countP, List.countP_filter]
  simp only [Option.isSome_map]

/-- **A field is loaded if it is asked for and declared as stored.** -/
theorem contains_loadable_eq (load : NameSet) (name : String) :
    (ix.loadable load).contains name =
      (load.contains name && (ix.declared.find? name).any (·.stored)) := by
  rw [NameMap.contains, NameMap.contains, loadable, NameMap.find?_filter]
  cases hfind : load.find? name with
  | none => rfl
  | some other =>
    obtain rfl : other = name := (NameMap.find?_eq_some_iff.mp hfind).2
    rw [Option.filter_some]
    split <;> simp [*]

/-- A stored field is loaded if it is asked for. -/
theorem contains_loadable {name : String}
    (h : (ix.declared.find? name).any (·.stored) = true) (load : NameSet) :
    (ix.loadable load).contains name = load.contains name := by
  rw [contains_loadable_eq, h, Bool.and_true]

end ScanIndex

/-- Selecting fields by their names keeps the values of the names that stay. -/
theorem Document.values_filter (d : Document) (p : String → Bool) (name : String) :
    values ⟨d.fields.filter fun f => p f.name⟩ name = if p name then d.values name else [] := by
  rw [values, values, List.filter_filter]
  split
  · rename_i hname
    refine congrArg _ (List.filter_congr fun f _ => ?_)
    cases hf : f.name == name with
    | false => rfl
    | true => rw [Bool.true_and, beq_iff_eq.mp hf, hname]
  · rename_i hname
    rw [List.map_eq_nil_iff, List.filter_eq_nil_iff]
    intro f _ hf
    obtain ⟨heq, hselected⟩ := Bool.and_eq_true_iff.mp hf
    exact hname (beq_iff_eq.mp heq ▸ hselected)

/-- Cutting a document down keeps the values of the names that stay. -/
theorem Document.values_project (d : Document) (names : NameSet) (name : String) :
    (d.project names).values name = if names.contains name then d.values name else [] :=
  d.values_filter names.contains name

end RowIndex
