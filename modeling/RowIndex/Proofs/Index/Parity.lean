import RowIndex.Proofs.Index.HitOrder
import RowIndex.Proofs.Index.InvertedHits
import RowIndex.Proofs.Index.Mirrors
import RowIndex.Proofs.Index.Plans
import RowIndex.Proofs.Index.ScanHits
import RowIndex.Proofs.Sorting

/-!
# Proofs/Index/Parity — both indexes find the same documents

The scanned index scores every document, sorts the hits and cuts them; the inverted index lets the
engine select by a plan, sort by the terms of one field and cut, and then sorts what it loaded once
more.  Where one criterion tells all documents apart, sorting is the same on both sides: the engine
sorts terms as the criterion does values (`Criterion.Separates.sort_selected`), and the scores never
decide (`ScanIndex.found_eq`, `InvertedIndex.best_eq`).  So both find the same documents
(`search_parity`).

    scanned:   documents ──score──▸ hits ──sort──▸ ──cut──▸ found
    inverted:  visible ──plan──▸ ──sort──▸ ──cut──▸ ──load, sort, cut──▸ found
-/

namespace RowIndex

open SearchIndex

/-! ## A criterion that tells documents apart -/

theorem Document.first?_eq_some_of_values {d : Document} {field : String} {v : FieldValue}
    (h : d.values field = [v]) : d.first? field = some v := by
  rw [first?, h]
  rfl

theorem Criterion.order_of_values {c : Criterion} {a b : Document} {v w : FieldValue}
    (ha : a.values c.field = [v]) (hb : b.values c.field = [w]) :
    c.order a b = if c.reverse then w.order v else v.order w :=
  c.order_of_first? (Document.first?_eq_some_of_values ha) (Document.first?_eq_some_of_values hb)

/-- A criterion that tells documents apart: each has one value for it, all of one kind, and no two
the same. -/
structure Criterion.Separates (c : Criterion) (kind : FieldKind) (documents : List Document) :
    Prop where
  single : ∀ d ∈ documents, ∃ v, v.kind = kind ∧ d.values c.field = [v]
  distinct : documents.Pairwise fun a b => a.values c.field ≠ b.values c.field

/-- Documents that were checked have values of the declared kind, so a criterion by which each has
one value, and no two the same, tells them apart. -/
theorem Criterion.separates_of_check {declared : Declarations} {documents : List Document}
    (hcheck : ∀ d ∈ documents, declared.check d = .ok ()) {c : Criterion} {spec : FieldSpec}
    (hspec : declared.find? c.field = some spec)
    (hsingle : ∀ d ∈ documents, ∃ v, d.values c.field = [v])
    (hdistinct : documents.Pairwise fun a b => a.values c.field ≠ b.values c.field) :
    c.Separates spec.kind documents where
  single d hd := by
    obtain ⟨v, hv⟩ := hsingle d hd
    exact ⟨v, Declarations.kind_of_check (hcheck d hd) hspec (hv ▸ List.mem_cons_self), hv⟩
  distinct := hdistinct

namespace Criterion.Separates

variable {c : Criterion} {kind : FieldKind} {documents : List Document}
  (h : c.Separates kind documents)

include h

/-- Documents that tie are the same. -/
theorem eq_of_order {a b : Document} (ha : a ∈ documents) (hb : b ∈ documents)
    (hab : c.order a b = .eq) : a = b := by
  obtain ⟨v, hv, hva⟩ := h.single a ha
  obtain ⟨w, hw, hwb⟩ := h.single b hb
  have hnodup : (documents.map (·.values c.field)).Nodup := List.pairwise_map.mpr h.distinct
  refine List.inj_on_of_nodup_map hnodup ha hb ?_
  rw [order_of_values hva hwb] at hab
  have hvw : v = w := by
    split at hab
    · exact ((FieldValue.order_eq_eq_iff (hw.trans hv.symm)).mp hab).symm
    · exact (FieldValue.order_eq_eq_iff (hv.trans hw.symm)).mp hab
  rw [hva, hwb, hvw]

/-- **Sorting puts the documents in order.** -/
theorem pairwise_mergeSort {l : List Document} (hl : l ⊆ documents) :
    (l.mergeSort fun a b => (c.order a b).isLE).Pairwise fun a b => (c.order a b).isLE = true := by
  refine Sorting.pairwise_mergeSort_of_mem (fun x hx y hy z hz hxy hyz => ?_) fun x hx y hy => ?_
  · obtain ⟨u, hu, hux⟩ := h.single x (hl hx)
    obtain ⟨v, hv, hvy⟩ := h.single y (hl hy)
    obtain ⟨w, hw, hwz⟩ := h.single z (hl hz)
    exact c.isLE_order_trans_of_first? (Document.first?_eq_some_of_values hux)
      (Document.first?_eq_some_of_values hvy) (Document.first?_eq_some_of_values hwz)
      (hu.trans hv.symm) (hv.trans hw.symm) hxy hyz
  · rw [← c.swap_order x y]
    cases c.order x y <;> rfl

/-- In whatever order documents come, they are sorted to one list. -/
theorem mergeSort_eq_of_perm {l l' : List Document} (hl : l ⊆ documents) (hperm : l.Perm l') :
    (l.mergeSort fun a b => (c.order a b).isLE) = l'.mergeSort fun a b => (c.order a b).isLE := by
  have hsorted := (List.mergeSort_perm l fun a b => (c.order a b).isLE).trans
    (hperm.trans (List.mergeSort_perm l' fun a b => (c.order a b).isLE).symm)
  refine hsorted.eq_of_pairwise (fun a b ha hb hab hba => ?_) (h.pairwise_mergeSort hl)
    (h.pairwise_mergeSort fun d hd => hl (hperm.mem_iff.mpr hd))
  refine h.eq_of_order (hl (List.mem_mergeSort.mp ha))
    (hl (hperm.symm.subset (List.mem_mergeSort.mp hb))) ?_
  rw [← c.swap_order a b] at hba
  cases horder : c.order a b with
  | eq => rfl
  | lt | gt => rw [horder] at hab hba; contradiction

/-- Whatever decides ties between hits, their documents are in the order of the criterion, provided
that equal documents have equal scores. -/
theorem map_mergeSort {α : Type} (document : α → Document) (seen : α → Hit) {l : List α}
    (hmem : ∀ a ∈ l, document a ∈ documents)
    (hseen : ∀ a ∈ l, (seen a).document.values c.field = (document a).values c.field)
    (hscore : ∀ a ∈ l, ∀ b ∈ l, document a = document b → (seen a).score = (seen b).score) :
    (l.mergeSort fun a b => (SortOrder.order ⟨[c]⟩ (seen a) (seen b)).isLE).map document =
      (l.map document).mergeSort fun a b => (c.order a b).isLE := by
  refine List.map_mergeSort fun a ha b hb => ?_
  have horder : c.order (seen a).document (seen b).document =
      c.order (document a) (document b) := by
    rw [order, order, Document.first?, Document.first?, Document.first?, Document.first?,
      hseen a ha, hseen b hb]
  change ((c.order (seen a).document (seen b).document).then
    (compare (seen b).score (seen a).score)).isLE = _
  rw [horder]
  cases hab : c.order (document a) (document b) with
  | lt => rfl
  | gt => rfl
  | eq =>
    rw [hscore a ha b hb (h.eq_of_order (hmem a ha) (hmem b hb) hab), Std.ReflOrd.compare_self]
    rfl

end Criterion.Separates

/-! ## What the scanned index finds -/

namespace ScanIndex

/-- The documents that a search finds, in order. -/
def found (ix : ScanIndex) (s : Search) : List Document :=
  ((s.order.sort (ix.hits s.query s.filter)).take s.limit).map Hit.document

/-- Only documents of the index that the query finds are found. -/
theorem finds_of_mem_found {ix : ScanIndex} {s : Search} {d : Document} (h : d ∈ ix.found s) :
    d ∈ ix.documents ∧ s.query.finds d = true := by
  obtain ⟨hit, hhit, rfl⟩ := List.mem_map.mp h
  obtain ⟨hd, -, hscore⟩ := mem_hits.mp (List.mem_mergeSort.mp (List.mem_of_mem_take hhit))
  exact ⟨hd, Option.isSome_iff_exists.mpr ⟨_, hscore⟩⟩

/-- **The documents found are the matching ones in the order of the criterion**, up to the limit. -/
theorem found_eq {ix : ScanIndex} {s : Search} {c : Criterion} {kind : FieldKind}
    (horder : s.order = ⟨[c]⟩) (h : c.Separates kind ix.documents) :
    ix.found s =
      ((ix.documents.filter fun d => s.query.finds d && s.filter.all (Query.finds d)).mergeSort
        fun a b => (c.order a b).isLE).take s.limit := by
  have hhits : (ix.hits s.query s.filter).map Hit.document =
      ix.documents.filter fun d => s.query.finds d && s.filter.all (Query.finds d) :=
    map_document_hits
  have hscore : ∀ a ∈ ix.hits s.query s.filter, ∀ b ∈ ix.hits s.query s.filter,
      a.document = b.document → a.score = b.score := by
    intro a ha b hb hab
    have hscore := (mem_hits.mp ha).2.2
    rw [hab, (mem_hits.mp hb).2.2] at hscore
    exact (Option.some.inj hscore).symm
  have hsort := h.map_mergeSort Hit.document id (fun hit hhit => (mem_hits.mp hhit).1)
    (fun _ _ => rfl) hscore
  rw [found, List.map_take, SortOrder.sort, horder, ← hhits]
  exact congrArg _ hsort

/-- The hits of a search carry the stored fields of the documents found. -/
theorem map_document_search (ix : ScanIndex) (s : Search) :
    (ix.search s).map Hit.document = (ix.found s).map (·.project (ix.loadable s.load)) := by
  rw [search, found, List.map_map, List.map_map]
  rfl

end ScanIndex

/-! ## What the inverted index finds -/

section Engines

variable {declared : Declarations} {documents : List Document} {c : Criterion} {spec : FieldSpec}
  (hcheck : ∀ d ∈ documents, declared.check d = .ok ()) (hfits : ∀ d ∈ documents, d.Fits)
  (hspec : declared.find? c.field = some spec) (hkind : spec.kind ≠ .text)
  (h : c.Separates spec.kind documents)

include hcheck hfits hspec hkind h

/-- **The engine orders documents by their terms as the criterion does by their values.** -/
theorem Criterion.Separates.fastOrder_eq (engine : Engine) {a b : Document} (ha : a ∈ documents)
    (hb : b ∈ documents) : engine.fastOrder spec.bound c.reverse a b = c.order a b := by
  have htokens {d : Document} (hd : d ∈ documents) {v : FieldValue} (hv : d.values c.field = [v]) :
      spec.bound.tokens d = [v.indexTerm] ∧ v.indexTerm.fits = true := by
    have hone : spec.bound.tokens d = [v.indexTerm] := by
      rw [FieldSpec.tokens_bound (hcheck d hd) hspec hkind, hv]
      rfl
    exact ⟨hone, FieldSpec.fits_of_mem_tokens (hcheck d hd) hspec hkind (hfits d hd)
      (hone ▸ List.mem_cons_self)⟩
  obtain ⟨v, hv, hva⟩ := h.single a ha
  obtain ⟨w, hw, hwb⟩ := h.single b hb
  rw [engine.fastOrder_of_tokens _ _ _ _ _ _ (htokens ha hva).1 (htokens hb hwb).1
      (htokens ha hva).2 (htokens hb hwb).2, order_of_values hva hwb,
    FieldValue.order_indexTerm (hv.trans hw.symm), FieldValue.order_indexTerm (hw.trans hv.symm)]

/-- **What the engine selects it sorts by the criterion**, in whatever order it holds documents. -/
theorem Criterion.Separates.sort_selected {ix : InvertedIndex} (hvisible : ix.visible = documents)
    (plan : Plan) :
    ((ix.selected plan).mergeSort fun a b =>
        (ix.engine.fastOrder spec.bound c.reverse a b).isLE) =
      (documents.filter (ix.engine.selects plan)).mergeSort fun a b => (c.order a b).isLE := by
  have hperm : (ix.selected plan).Perm (documents.filter (ix.engine.selects plan)) :=
    hvisible ▸ ix.perm_selected plan
  have hmem : ix.selected plan ⊆ documents := fun d hd =>
    List.mem_of_mem_filter (hperm.mem_iff.mp hd)
  have hterms := List.map_mergeSort (f := id) (l := ix.selected plan)
    (r := fun a b => (ix.engine.fastOrder spec.bound c.reverse a b).isLE)
    (s := fun a b => (c.order a b).isLE) fun a ha b hb =>
      congrArg _ (h.fastOrder_eq hcheck hfits hspec hkind ix.engine (hmem ha) (hmem hb))
  rw [List.map_id, List.map_id] at hterms
  exact hterms.trans (h.mergeSort_eq_of_perm hmem hperm)

end Engines

namespace InvertedIndex

variable {ix : InvertedIndex} {declared : Declarations}

/-- The engine sorts by a sortable field that is matched as a whole. -/
theorem engineOrder?_of_sortable (hserve : ix.bindings.Serve declared) {c : Criterion}
    {spec : FieldSpec} (hspec : declared.find? c.field = some spec) (hkind : spec.kind ≠ .text)
    (hsortable : spec.sortable = true) :
    ix.engineOrder? ⟨[c]⟩ = some (.fast spec.bound c.reverse) := by
  have hfast : spec.bound.layout.fast = true := by
    rw [FieldSpec.bound, FieldSpec.layout]
    cases hk : spec.kind with
    | long | double => rfl
    | keyword => exact hsortable
    | text => exact (hkind hk).elim
  have hbound : ix.bindings.find? c.field = some spec.bound := by
    rw [hserve c.field, hspec]
    rfl
  simp only [engineOrder?, hbound]
  exact if_pos ⟨hkind, hfast⟩

/-- **A search in the order of one field has no regard to scores**: which documents are found
depends only on those that are selected, and on their terms. -/
theorem exists_best_of_fast (hserve : ix.bindings.Serve declared) {s : Search} {c : Criterion}
    (horder : s.order = ⟨[c]⟩) {spec : FieldSpec} (hspec : declared.find? c.field = some spec)
    (hkind : spec.kind ≠ .text) (hsortable : spec.sortable = true) {plan : Plan}
    (hplan : Plan.ofSearch ix.bindings s = .ok plan) :
    ∃ found, ix.best s = .ok found ∧ (found.map Prod.fst).Perm
      (((ix.selected plan).mergeSort fun a b =>
        (ix.engine.fastOrder spec.bound c.reverse a b).isLE).take s.limit) := by
  by_cases hnone : s.limit = 0 ∨ ix.visible = []
  · refine ⟨[], if_pos hnone, ?_⟩
    rcases hnone with hlimit | hempty
    · rw [hlimit]
      exact .nil
    · have hselected := ix.perm_selected plan
      rw [hempty, List.filter_nil] at hselected
      rw [hselected.eq_nil, List.mergeSort_nil, List.take_nil]
      exact .nil
  · refine ⟨_, by rw [best, if_neg hnone, hplan]; rfl, ?_⟩
    rw [collect, horder, engineOrder?_of_sortable hserve hspec hkind hsortable]
    have hsorted := List.mergeSort_perm ((((ix.selected plan).mergeSort fun a b =>
      (ix.engine.fastOrder spec.bound c.reverse a b).isLE).take s.limit).map (ix.loaded s plan))
      fun a b => (SortOrder.order ⟨[c]⟩ a.2 b.2).isLE
    rw [List.take_of_length_le]
    · refine (hsorted.map Prod.fst).trans (.of_eq ?_)
      rw [List.map_map]
      exact List.map_id _
    · rw [hsorted.length_eq, List.length_map]
      exact List.length_take_le ..

section Best

variable {s : Search} {c : Criterion} {spec : FieldSpec} (hserve : ix.bindings.Serve declared)
  (hcheck : ∀ d ∈ ix.visible, declared.check d = .ok ()) (horder : s.order = ⟨[c]⟩)
  (hspec : declared.find? c.field = some spec) (hkind : spec.kind ≠ .text)
  (hsortable : spec.sortable = true) (h : c.Separates spec.kind ix.visible)

include hserve hcheck horder hspec hsortable h

/-- Loaded documents are sorted like the documents. -/
theorem map_mergeSort_loaded (plan : Plan) {l : List Document} (hl : l ⊆ ix.visible) :
    ((l.map (ix.loaded s plan)).mergeSort fun a b => (s.order.order a.2 b.2).isLE).map Prod.fst =
      l.mergeSort fun a b => (c.order a b).isLE := by
  have hloaded : ∀ f ∈ l.map (ix.loaded s plan), f.1 ∈ ix.visible ∧ f = ix.loaded s plan f.1 := by
    intro f hf
    obtain ⟨d, hd, rfl⟩ := List.mem_map.mp hf
    exact ⟨hl hd, rfl⟩
  have hneeded : c.field ∈ (needed s).entries :=
    mem_needed.mpr (Or.inl (horder ▸ List.mem_cons_self))
  have hstored : (spec.stored || spec.sortable) = true := by rw [hsortable, Bool.or_true]
  have hvalues : ∀ f ∈ l.map (ix.loaded s plan),
      f.2.document.values c.field = f.1.values c.field := by
    intro f hf
    obtain ⟨hvisible, heq⟩ := hloaded f hf
    rw [heq]
    exact values_loadFields hserve (hcheck _ hvisible) hspec hneeded hstored
  have hscore : ∀ f ∈ l.map (ix.loaded s plan), ∀ g ∈ l.map (ix.loaded s plan), f.1 = g.1 →
      f.2.score = g.2.score := by
    intro f hf g hg hfg
    rw [(hloaded f hf).2, (hloaded g hg).2, hfg]
  have hfst : (l.map (ix.loaded s plan)).map Prod.fst = l := by
    rw [List.map_map]
    exact List.map_id l
  rw [horder, h.map_mergeSort Prod.fst Prod.snd (fun f hf => (hloaded f hf).1) hvalues hscore, hfst]

include hkind

/-- **The documents found are the selected ones in the order of the criterion**, up to the limit, if
the engine takes their terms in. -/
theorem best_eq (hfits : ∀ d ∈ ix.visible, d.Fits) {plan : Plan}
    (hplan : Plan.ofSearch ix.bindings s = .ok plan) :
    ∃ found, ix.best s = .ok found ∧ found.map Prod.fst =
      ((ix.visible.filter (ix.engine.selects plan)).mergeSort
        fun a b => (c.order a b).isLE).take s.limit := by
  by_cases hnone : s.limit = 0 ∨ ix.visible = []
  · refine ⟨[], if_pos hnone, ?_⟩
    rcases hnone with hlimit | hempty
    · rw [hlimit]
      rfl
    · rw [hempty, List.filter_nil, List.mergeSort_nil, List.take_nil]
      rfl
  · have hselected : ix.visible.filter (ix.engine.selects plan) ⊆ ix.visible :=
      List.filter_sublist.subset
    have hsorted := (h.pairwise_mergeSort hselected).sublist (List.take_sublist s.limit _)
    have hcollect : ix.collect plan s.order s.limit =
        ((ix.visible.filter (ix.engine.selects plan)).mergeSort
          fun a b => (c.order a b).isLE).take s.limit := by
      rw [collect, horder, engineOrder?_of_sortable hserve hspec hkind hsortable]
      exact congrArg _ (h.sort_selected hcheck hfits hspec hkind rfl plan)
    have hvisible : ix.collect plan s.order s.limit ⊆ ix.visible := fun d => mem_of_mem_collect
    refine ⟨_, by rw [best, if_neg hnone, hplan]; rfl, ?_⟩
    -- What the engine has cut is in order, so that sorting and cutting it again changes nothing.
    rw [List.map_take, map_mergeSort_loaded hserve hcheck horder hspec hsortable h plan hvisible,
      hcollect, List.mergeSort_of_pairwise hsorted, List.take_take, Nat.min_self]

end Best

end InvertedIndex

/-! ## Both indexes -/

/-- Hits on either side carry the same values of a stored field. -/
theorem Mirrors.values_hit {ix : InvertedIndex} {scan : ScanIndex} (h : Mirrors ix scan scan)
    (s : Search) {spec : FieldSpec} (hspec : scan.declared.find? spec.name = some spec)
    (hstored : spec.stored = true) {d : Document} (hd : d ∈ scan.documents) :
    ((ix.loadFields (InvertedIndex.needed s) d).project s.load).values spec.name =
      (d.project (scan.loadable s.load)).values spec.name := by
  have hloaded : (scan.declared.find? spec.name).any (·.stored) = true := by
    rw [hspec]
    exact hstored
  rw [Document.values_project, Document.values_project, ScanIndex.contains_loadable hloaded]
  split
  · rename_i hload
    obtain ⟨name, hname⟩ := Option.isSome_iff_exists.mp hload
    obtain ⟨hmem, rfl⟩ := NameMap.find?_eq_some_iff.mp hname
    exact InvertedIndex.values_loadFields h.serve (h.check_visible d hd) hspec
      (InvertedIndex.mem_needed.mpr (Or.inr hmem)) (by rw [hstored, Bool.true_or])
  · rfl

/-- Hits that are for the same documents carry the same values of every stored field. -/
theorem Mirrors.map_values_hits {ix : InvertedIndex} {scan : ScanIndex} (h : Mirrors ix scan scan)
    {s : Search} {found : List (Document × Hit)} (hbest : ix.best s = .ok found)
    (hfound : found.map Prod.fst = scan.found s) {spec : FieldSpec}
    (hspec : scan.declared.find? spec.name = some spec) (hstored : spec.stored = true) :
    (found.map fun f => { f.2 with document := f.2.document.project s.load }).map
        (·.document.values spec.name) =
      (scan.search s).map (·.document.values spec.name) := by
  have hvalues (f : Document × Hit) (hf : f ∈ found) :
      (f.2.document.project s.load).values spec.name =
        (f.1.project (scan.loadable s.load)).values spec.name := by
    obtain ⟨hmem, hloaded⟩ := InvertedIndex.mem_of_best hbest hf
    rw [hloaded]
    exact h.values_hit s hspec hstored (h.visible_eq ▸ hmem)
  calc (found.map fun f => { f.2 with document := f.2.document.project s.load }).map
        (·.document.values spec.name)
      = found.map fun f => (f.1.project (scan.loadable s.load)).values spec.name := by
        rw [List.map_map]
        exact List.map_congr_left hvalues
    _ = (scan.found s).map fun d => (d.project (scan.loadable s.load)).values spec.name := by
        rw [← hfound, List.map_map]
        rfl
    _ = ((scan.search s).map Hit.document).map (·.values spec.name) := by
        rw [scan.map_document_search, List.map_map]
        rfl
    _ = (scan.search s).map (·.document.values spec.name) := List.map_map

/-- **An inverted index and the scanned one that it stands for find the same documents.** -/
theorem Mirrors.found_eq {ix : InvertedIndex} {scan : ScanIndex} (h : Mirrors ix scan scan)
    (hfits : ∀ d ∈ scan.documents, d.Fits) {s : Search}
    (hquery : s.query.Portable scan.declared scan.documents)
    (hfilter : ∀ filter ∈ s.filter, filter.Portable scan.declared scan.documents)
    {c : Criterion} (horder : s.order = ⟨[c]⟩) {spec : FieldSpec}
    (hspec : scan.declared.find? c.field = some spec) (hkind : spec.kind ≠ .text)
    (hsortable : spec.sortable = true) (hseparates : c.Separates spec.kind scan.documents) :
    ∃ found, ix.best s = .ok found ∧ found.map Prod.fst = scan.found s := by
  have hvisible : ix.visible = scan.documents := h.visible_eq
  obtain ⟨plan, hplan, hselects⟩ :=
    Query.exists_plan_search ix.engine h.serve h.check_visible hfits hquery hfilter
  obtain ⟨found, hbest, hfound⟩ := InvertedIndex.best_eq h.serve (hvisible ▸ h.check_visible)
    horder hspec hkind hsortable (hvisible ▸ hseparates) (hvisible ▸ hfits) hplan
  refine ⟨found, hbest, ?_⟩
  rw [hfound, scan.found_eq horder hseparates, hvisible, List.filter_congr hselects]

/-- **Both indexes find the same documents, in the same order.**  An inverted index that commits
every change and a scanned one are given the same changes, which both accept; the engine takes in
the terms by which documents are removed, and those of the documents that stay.  Their queries and
filters are nested in any way, and portable; one criterion on a sortable field tells all documents
apart.  Then for every limit both searches succeed and find the same documents in the same order,
and their hits carry the same values of every stored field. -/
theorem search_parity {settings : Settings} {engine : Engine} {specs : List FieldSpec}
    (hauto : settings.autoCommit = true) {ix₀ ix : InvertedIndex} {scan₀ scan : ScanIndex}
    (hopen : InvertedIndex.openWith settings none engine specs = .ok ix₀)
    (hopen' : ScanIndex.ofSpecs specs = .ok scan₀) {changes : List Change}
    (hix : changeAll ix₀ changes = .ok ix) (hscan : changeAll scan₀ changes = .ok scan)
    (hterms : ∀ c ∈ changes, c.Fits) (hfits : ∀ d ∈ scan.documents, d.Fits)
    {s : Search} (hquery : s.query.Portable scan₀.declared scan.documents)
    (hfilter : ∀ filter ∈ s.filter, filter.Portable scan₀.declared scan.documents)
    {c : Criterion} (horder : s.order = ⟨[c]⟩) {spec : FieldSpec} (hspec : spec ∈ specs)
    (hfield : spec.name = c.field) (hkind : spec.kind ≠ .text) (hsortable : spec.sortable = true)
    (hsingle : ∀ d ∈ scan.documents, ∃ v, d.values c.field = [v])
    (hdistinct : scan.documents.Pairwise fun a b => a.values c.field ≠ b.values c.field) :
    ∃ found hits hits', ix.best s = .ok found ∧ found.map Prod.fst = scan.found s ∧
      search ix s = .ok hits ∧ search scan s = .ok hits' ∧
      ∀ spec ∈ specs, spec.stored = true →
        hits.map (·.document.values spec.name) = hits'.map (·.document.values spec.name) := by
  obtain ⟨scan₀', hscan₀', hmirrors₀⟩ := Mirrors.openWith hopen
  obtain rfl := Except.ok.inj (hopen'.symm.trans hscan₀')
  have hauto₀ : ix₀.autoCommit = true := by
    obtain ⟨-, -, rfl⟩ := InvertedIndex.openWith_eq_ok_iff.mp hopen
    exact hauto
  obtain ⟨scan', hscan', hmirrors⟩ := hmirrors₀.follows hauto₀ hterms hix
  obtain rfl := Except.ok.inj (hscan.symm.trans hscan')
  obtain ⟨declared, hdeclared, rfl⟩ := map_eq_ok_iff.mp hopen'
  have hsame : scan.declared = declared := ScanIndex.declared_of_changeAll hscan
  have hfind {spec : FieldSpec} (h : spec ∈ specs) : scan.declared.find? spec.name = some spec :=
    hsame ▸ Declarations.find?_of_ofList hdeclared h
  have hspec' : scan.declared.find? c.field = some spec := hfield ▸ hfind hspec
  obtain ⟨found, hbest, hfound⟩ := hmirrors.found_eq hfits (hsame ▸ hquery) (hsame ▸ hfilter)
    horder hspec' hkind hsortable
    (Criterion.separates_of_check hmirrors.check_visible hspec' hsingle hdistinct)
  exact ⟨found, _, _, hbest, hfound, InvertedIndex.search_of_best hbest, rfl,
    fun spec hspec hstored => hmirrors.map_values_hits hbest hfound (hfind hspec) hstored⟩

/-- Of two documents whose texts share a word, written differently, with a query, both indexes find
the one with the greater value. -/
theorem search_parity_of_nested_query :
    let specs : List FieldSpec :=
      [⟨"t", .long, true, true⟩, ⟨"k", .keyword, true, false⟩, ⟨"bio", .text, false, false⟩]
    let ix₀ := InvertedIndex.created {} .plain specs
    let scan₀ : ScanIndex := { declared := NameMap.ofList specs }
    let d (key : String) (t : Int64) (bio : String) : Document :=
      ⟨[⟨"t", .long t⟩, ⟨"k", .keyword key⟩, ⟨"bio", .text bio⟩]⟩
    let changes : List Change :=
      [.upsert ⟨"k", "a"⟩ (d "a" 3 "go"), .upsert ⟨"k", "b"⟩ (d "b" 1 "Rust, go"),
        .upsert ⟨"k", "c"⟩ (d "c" 2 "rust"), .upsert ⟨"k", "a"⟩ (d "a" 4 "RUST"),
        .delete ⟨"k", "c"⟩]
    let s : Search :=
      { query := .boolean [.boost (.matching "bio" "rust") Binary.one] []
          [.boolean [] [] [], .term "k" (.keyword "z")]
        filter := some (.range "t" (.included (.long 1)) .unbounded)
        order := ⟨[⟨"t", true⟩]⟩
        load := .ofList ["k"]
        limit := 1 }
    ∃ ix found scan, changeAll ix₀ changes = .ok ix ∧ changeAll scan₀ changes = .ok scan ∧
      ix.best s = .ok found ∧ found.map Prod.fst = scan.found s ∧
      scan.documents = [d "b" 1 "Rust, go", d "a" 4 "RUST"] ∧ scan.found s = [d "a" 4 "RUST"] := by
  intro specs ix₀ scan₀ d changes s
  have hopen : InvertedIndex.openWith {} none .plain specs = .ok ix₀ :=
    InvertedIndex.openWith_eq_ok_iff.mpr ⟨by decide, by decide, rfl⟩
  have hsize : (changeAll ix₀ changes).map size = .ok 2 := by decide +kernel
  obtain ⟨ix, hix, -⟩ := map_eq_ok_iff.mp hsize
  have hscan : changeAll scan₀ changes =
      .ok { scan₀ with documents := [d "b" 1 "Rust, go", d "a" 4 "RUST"] } := rfl
  have hsame {text : String} (h : Text.analyze text = Text.analyzeIndexed text) :
      Text.SameTokens text := fun token => by rw [h]
  have hbio : ∀ e ∈ [d "b" 1 "Rust, go", d "a" 4 "RUST"], ∀ stored,
      .text stored ∈ e.values "bio" → Text.SameTokens stored := by
    intro e he stored hstored
    have hvalues : e.values "bio" = [.text "Rust, go"] ∨ e.values "bio" = [.text "RUST"] := by
      rcases List.mem_pair.mp he with rfl | rfl
      · exact .inl rfl
      · exact .inr rfl
    rcases hvalues with hvalues | hvalues <;> rw [hvalues] at hstored <;>
      cases List.mem_singleton.mp hstored
    · exact hsame (by decide +kernel)
    · exact hsame (by decide +kernel)
  have hquery : s.query.Portable scan₀.declared [d "b" 1 "Rust, go", d "a" 4 "RUST"] := by
    simp only [s, Query.Portable, Query.AllPortable, and_true, true_and]
    exact ⟨⟨⟨"bio", .text, false, false⟩, rfl, rfl, hsame (by decide +kernel), hbio⟩,
      ⟨"k", .keyword, true, false⟩, rfl, nofun, rfl⟩
  have hfilter : ∀ filter ∈ s.filter,
      filter.Portable scan₀.declared [d "b" 1 "Rust, go", d "a" 4 "RUST"] := by
    intro filter hfilter
    cases hfilter
    rw [Query.Portable]
    exact ⟨⟨"t", .long, true, true⟩, rfl, nofun, rfl, trivial, rfl⟩
  obtain ⟨found, -, -, hbest, hfound, -⟩ := search_parity rfl hopen rfl hix hscan
    (by decide +kernel) (by decide +kernel) hquery hfilter rfl List.mem_cons_self rfl nofun rfl
    (by simp [d, Document.values]) (by decide +kernel)
  refine ⟨ix, found, _, hix, hscan, hbest, hfound, rfl, ?_⟩
  have hhits : ({ scan₀ with documents := [d "b" 1 "Rust, go", d "a" 4 "RUST"] } : ScanIndex).hits
      s.query s.filter = [⟨d "b" 1 "Rust, go", Binary.one⟩, ⟨d "a" 4 "RUST", Binary.one⟩] := by
    decide +kernel
  have hswap : (s.order.order ⟨d "b" 1 "Rust, go", Binary.one⟩
      ⟨d "a" 4 "RUST", Binary.one⟩).isLE = false := by decide +kernel
  rw [ScanIndex.found, hhits, SortOrder.sort]
  simp [List.mergeSort, hswap, s]

end RowIndex
