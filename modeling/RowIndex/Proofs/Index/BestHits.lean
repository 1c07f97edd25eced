import RowIndex.Proofs.Index.Changes
import RowIndex.Proofs.Index.HitOrder
import RowIndex.Proofs.Index.Plans
import RowIndex.Proofs.Index.ScanHits

/-!
# Proofs/Index/BestHits — a search of the scanned index returns the best hits

After any changes, refused ones among them, the scanned index holds the documents that were inserted
and not removed again, in the order in which they were inserted (`ScanIndex.attempts_eq`).  All of
them pass the check, so their hits can be put in order, those that tie in the order of insertion
(`ScanIndex.ranks_ranking`).  A search cuts this ranking and then drops what is not loaded, in this
order: what a hit carries has no influence on its place (`ScanIndex.search_eq`).

    documents ──filter, score──▸ hits ──sort──▸ ranking ──take──▸ best ──project──▸ result
-/

namespace RowIndex

open SearchIndex

/-! ## Documents after changes -/

namespace Change

variable (declared : Declarations)

/-- The documents that a change inserts: one, if it is an upsert that passes the check. -/
def inserted : Change → List Document
  | upsert _ d => if (declared.check d).isOk then [d] else []
  | delete _ => []
  | commit => []

/-- Whether a change removes a document that is there before it. -/
def removes (d : Document) : Change → Bool
  | upsert t e => (declared.check e).isOk && d.hasTerm t
  | delete t => d.hasTerm t
  | commit => false

/-- The documents that a list of changes inserts and does not remove again, in order. -/
def standing : List Change → List Document
  | [] => []
  | c :: rest =>
    ((c.inserted declared).filter fun d => !rest.any (removes declared d)) ++ standing rest

/-- What stands has passed the check. -/
theorem check_of_mem_standing {changes : List Change} {d : Document}
    (h : d ∈ standing declared changes) : declared.check d = .ok () := by
  induction changes with
  | nil => exact (List.not_mem_nil h).elim
  | cons c rest ih =>
    rcases List.mem_append.mp h with h | h
    · have hinserted := (List.mem_filter.mp h).1
      cases c with
      | upsert t e =>
        rw [inserted] at hinserted
        cases hcheck : declared.check e with
        | ok _ =>
          rw [hcheck] at hinserted
          exact List.mem_singleton.mp hinserted ▸ hcheck
        | error _ =>
          rw [hcheck] at hinserted
          exact (List.not_mem_nil hinserted).elim
      | delete | commit => exact (List.not_mem_nil hinserted).elim
    · exact ih h

end Change

namespace ScanIndex

/-- A change removes documents and inserts others behind those that stay. -/
theorem attempt_eq (ix : ScanIndex) (c : Change) :
    attempt ix c = ⟨ix.declared,
      (ix.documents.filter fun d => !c.removes ix.declared d) ++ c.inserted ix.declared⟩ := by
  rw [attempt_eq_getD]
  cases c with
  | upsert t e =>
    rw [change_upsert]
    cases hcheck : ix.declared.check e with
    | ok _ =>
      simp [Change.removes, Change.inserted, hcheck, Except.map, Except.toOption, Except.isOk,
        Except.toBool, without]
    | error _ =>
      simp [Change.removes, Change.inserted, hcheck, Except.map, Except.toOption, Except.isOk,
        Except.toBool]
  | delete t =>
    simp [change_delete, delete, Change.removes, Change.inserted, Except.toOption, without]
  | commit => simp [change_commit, Change.removes, Change.inserted, Except.toOption]

/-- **An index holds what was inserted and not removed again**, in the order of insertion. -/
theorem attempts_eq (ix : ScanIndex) (changes : List Change) :
    attempts ix changes = ⟨ix.declared,
      (ix.documents.filter fun d => !changes.any (Change.removes ix.declared d)) ++
        Change.standing ix.declared changes⟩ := by
  induction changes generalizing ix with
  | nil => simp [attempts, Change.standing]
  | cons c rest ih =>
    change attempts (attempt ix c) rest = _
    rw [ih, attempt_eq]
    simp [Change.standing, List.filter_append, List.filter_filter, Bool.and_comm, Bool.not_or]

/-! ## The ranking of a search -/

/-- All hits of a search, in order. -/
def ranking (ix : ScanIndex) (query : Query) (filter : Option Query) (order : SortOrder) :
    List Hit :=
  order.sort (ix.hits query filter)

/-- A list of hits ranks the documents of an index: each document that is found and passes the
filter is in it once, with its own score; the hits are in order, and those that tie are in the order
in which the index holds their documents. -/
structure Ranks (ix : ScanIndex) (query : Query) (filter : Option Query) (order : SortOrder)
    (hits : List Hit) : Prop where
  perm : (hits.map Hit.document).Perm
    (ix.documents.filter fun d => query.finds d && filter.all (Query.finds d))
  score : ∀ hit ∈ hits, query.score hit.document = some hit.score
  ordered : hits.Pairwise fun a b => (order.order a b).isLE = true
  stable : ∀ hit ∈ hits,
    ((hits.filter fun other => order.order hit other = .eq).map Hit.document).Sublist ix.documents

/-- **Hits of documents that pass the check are ranked by sorting them.** -/
theorem ranks_ranking {ix : ScanIndex} (hcheck : ∀ d ∈ ix.documents, ix.declared.check d = .ok ())
    (query : Query) (filter : Option Query) (order : SortOrder) :
    ix.Ranks query filter order (ix.ranking query filter order) := by
  have hhits : ∀ hit ∈ ix.hits query filter, ix.declared.check hit.document = .ok () :=
    fun hit hhit => hcheck _ (mem_hits.mp hhit).1
  have htrans : ∀ a ∈ ix.hits query filter, ∀ b ∈ ix.hits query filter,
      ∀ c ∈ ix.hits query filter, (order.order a b).isLE = true → (order.order b c).isLE = true →
        (order.order a c).isLE = true :=
    fun a ha b hb c hc => SortOrder.isLE_order_trans (hhits a ha) (hhits b hb) (hhits c hc)
  have htotal : ∀ a ∈ ix.hits query filter, ∀ b ∈ ix.hits query filter,
      ((order.order a b).isLE || (order.order b a).isLE) = true :=
    fun a ha b hb => SortOrder.isLE_order_total (hhits a ha) (hhits b hb)
  have hperm : (ix.ranking query filter order).Perm (ix.hits query filter) :=
    List.mergeSort_perm _ _
  refine ⟨?_, fun hit hhit => (mem_hits.mp (hperm.mem_iff.mp hhit)).2.2,
    Sorting.pairwise_mergeSort_of_mem htrans htotal, fun hit hhit => ?_⟩
  · exact map_document_hits ▸ hperm.map Hit.document
  · have hhit := hhits hit (hperm.mem_iff.mp hhit)
    have hties : (ix.ranking query filter order).filter (fun other => order.order hit other = .eq) =
        (ix.hits query filter).filter fun other => order.order hit other = .eq :=
      Sorting.filter_mergeSort_of_tie htrans htotal fun a ha b hb hhita hhitb =>
        SortOrder.isLE_of_ties (hhits a ha) (hhits b hb) hhit (of_decide_eq_true hhita)
          (of_decide_eq_true hhitb)
    have hsublist : ((ix.hits query filter).map Hit.document).Sublist ix.documents := by
      rw [map_document_hits]
      exact List.filter_sublist
    rw [hties]
    exact (List.filter_sublist.map Hit.document).trans hsublist

/-- A search returns the best hits of the ranking, cut down to what is loaded. -/
theorem search_eq (ix : ScanIndex) (s : Search) :
    ix.search s = ((ix.ranking s.query s.filter s.order).take s.limit).map fun hit =>
      { hit with document := hit.document.project (ix.loadable s.load) } := rfl

end ScanIndex

/-- The fields of a document that are asked for and declared as stored, in their order. -/
def Document.carried (specs : List FieldSpec) (load : NameSet) (d : Document) : Document :=
  ⟨d.fields.filter fun f =>
    load.contains f.name && specs.any fun spec => spec.name == f.name && spec.stored⟩

theorem Document.project_loadable {specs : List FieldSpec} {ix : ScanIndex}
    (h : Declarations.ofList specs = .ok ix.declared) (load : NameSet) (d : Document) :
    d.project (ix.loadable load) = d.carried specs load := by
  refine congrArg Document.mk (List.filter_congr fun f _ => ?_)
  rw [ScanIndex.contains_loadable_eq, Declarations.any_find? h]

/-- The hit with what it carries of its document. -/
def Hit.carried (specs : List FieldSpec) (load : NameSet) (hit : Hit) : Hit :=
  { hit with document := hit.document.carried specs load }

/-- **A search returns the best hits.**  Whatever changes were attempted, an index holds the
documents that were inserted and not removed again, in order.  No search fails: for any query,
filter and order there is a ranking of these documents of which a search returns as many hits as its
limit allows, so all of them if the limit has room for all documents, and the first ones of what a
greater limit gives.  A hit keeps its score and carries the fields of its document that are asked
for and declared as stored. -/
theorem search_ranked {specs : List FieldSpec} {ix₀ : ScanIndex}
    (hopen : ScanIndex.ofSpecs specs = .ok ix₀) (changes : List Change) (query : Query)
    (filter : Option Query) (order : SortOrder) (load : NameSet) :
    let ix := attempts ix₀ changes
    let found (limit : Nat) : Except Error (List Hit) :=
      SearchIndex.search ix { query, filter, order, load, limit }
    ix.documents = Change.standing ix₀.declared changes ∧
    ∃ ranking : List Hit, ix.Ranks query filter order ranking ∧
      (∀ limit, found limit = .ok ((ranking.take limit).map (Hit.carried specs load))) ∧
      (∀ limit, ix.documents.length ≤ limit →
        found limit = .ok (ranking.map (Hit.carried specs load))) ∧
      ∀ m n, m ≤ n → ∃ best, found n = .ok best ∧ found m = .ok (best.take m) := by
  intro ix found
  obtain ⟨declared, hdeclared, rfl⟩ := map_eq_ok_iff.mp hopen
  have hix : ix = ⟨declared, Change.standing declared changes⟩ := ScanIndex.attempts_eq _ changes
  have hcheck : ∀ d ∈ ix.documents, ix.declared.check d = .ok () := by
    rw [hix]
    exact fun d hd => Change.check_of_mem_standing declared hd
  have hranks := ScanIndex.ranks_ranking hcheck query filter order
  have hfound (limit : Nat) : found limit =
      .ok (((ix.ranking query filter order).take limit).map (Hit.carried specs load)) := by
    have hspecs : Declarations.ofList specs = .ok ix.declared := by rw [hix, hdeclared]
    refine congrArg Except.ok (List.map_congr_left fun hit _ => ?_)
    rw [Hit.carried, Document.project_loadable hspecs]
  have hlength : (ix.ranking query filter order).length ≤ ix.documents.length := by
    rw [← List.length_map (f := Hit.document), hranks.perm.length_eq]
    exact List.length_filter_le _ _
  refine ⟨by rw [hix], _, hranks, hfound, fun limit hlimit => ?_, fun m n hmn => ?_⟩
  · rw [hfound, List.take_of_length_le (Nat.le_trans hlength hlimit)]
  · refine ⟨_, hfound n, ?_⟩
    rw [hfound, ← List.map_take, List.take_take, Nat.min_eq_left hmn]

/-- The last change is refused.  Two documents tie by a field that hits do not carry; the one that
was inserted again comes later, and falls behind the limit. -/
theorem search_ranked_of_ties :
    let specs : List FieldSpec := [⟨"k", .keyword, true, false⟩, ⟨"n", .long, false, true⟩]
    let ix₀ : ScanIndex := { declared := NameMap.ofList specs }
    let d (key : String) (n : Int64) : Document := ⟨[⟨"k", .keyword key⟩, ⟨"n", .long n⟩]⟩
    let changes : List Change := [.upsert ⟨"k", "a"⟩ (d "a" 2), .upsert ⟨"k", "b"⟩ (d "b" 2),
      .upsert ⟨"k", "c"⟩ (d "c" 1), .upsert ⟨"k", "a"⟩ (d "a" 2),
      .upsert ⟨"k", "b"⟩ ⟨[⟨"k", .long 1⟩]⟩]
    let order : SortOrder := ⟨[⟨"n", false⟩]⟩
    let load : NameSet := NameMap.ofList ["k", "n"]
    let ix := attempts ix₀ changes
    let found (limit : Nat) : Except Error (List Hit) :=
      SearchIndex.search ix { query := .all, order, load, limit }
    let hit (key : String) : Hit := ⟨⟨[⟨"k", .keyword key⟩]⟩, Binary.one⟩
    ScanIndex.ofSpecs specs = .ok ix₀ ∧ ix.documents = [d "b" 2, d "c" 1, d "a" 2] ∧
      found 3 = .ok [hit "c", hit "b", hit "a"] ∧ found 2 = .ok [hit "c", hit "b"] ∧
      ∃ ranking, ix.Ranks .all none order ranking ∧
        ranking.map (Hit.carried specs load) = [hit "c", hit "b", hit "a"] := by
  intro specs ix₀ d changes order load ix found hit
  obtain ⟨hdocuments, ranking, hranks, -, hall, hfirst⟩ :=
    @search_ranked specs ix₀ rfl changes .all none order load
  have hthree : found 3 = .ok [hit "c", hit "b", hit "a"] := by
    have hhits : ix.hits .all none =
        [⟨d "b" 2, Binary.one⟩, ⟨d "c" 1, Binary.one⟩, ⟨d "a" 2, Binary.one⟩] := by decide +kernel
    have hsorted : ix.ranking .all none order =
        [⟨d "c" 1, Binary.one⟩, ⟨d "b" 2, Binary.one⟩, ⟨d "a" 2, Binary.one⟩] := by
      rw [ScanIndex.ranking, SortOrder.sort, hhits]
      have hbc : (order.order ⟨d "b" 2, Binary.one⟩ ⟨d "c" 1, Binary.one⟩).isLE = false := by
        decide +kernel
      have hca : (order.order ⟨d "c" 1, Binary.one⟩ ⟨d "a" 2, Binary.one⟩).isLE = true := by
        decide +kernel
      have hba : (order.order ⟨d "b" 2, Binary.one⟩ ⟨d "a" 2, Binary.one⟩).isLE = true := by
        decide +kernel
      simp [List.mergeSort, hbc, hca, hba]
    refine congrArg Except.ok ?_
    rw [ScanIndex.search_eq, hsorted]
    decide +kernel
  obtain ⟨best, hbest, htwo⟩ := hfirst 2 3 (by decide)
  have hranking := Except.ok.inj ((hall 3 (by rw [hdocuments]; decide +kernel)).symm.trans hthree)
  obtain rfl := Except.ok.inj (hbest.symm.trans hthree)
  exact ⟨rfl, hdocuments.trans (by decide +kernel), hthree, htwo, ranking, hranks, hranking⟩

end RowIndex
