import RowIndex.Proofs.Index.TextMatches
import RowIndex.Proofs.Service.Replicas
import RowIndex.Proofs.Service.Search

/-!
# Proofs/Service/ReplicaSearch — searches of a service and of its replica

    scanned    ──found──▸ documents ──keys──▸ live rows
                             ‖
    inverted   ──best───▸ documents ──keys──▸ live rows

A search of either service reads the rows of the keys that its hits carry (`keys_of_search`).  The
query of the replica becomes a plan, which may select what another query finds; if the engine takes
the documents in as they are, the two searches return rows of the same keys
(`Replica.alike_of_planned`).  Without a plan the replica refuses the query as soon as there is a
document to look at (`Replica.search_of_unplanned`).
-/

namespace RowIndex.Service

open SearchIndex

/-! ## The keys of a search -/

section Keys

variable {ι : Type} (s : Service ι) (time : Int64)

/-- The row of a hit is that of its key, if it is live. -/
theorem exists_row {hit : Hit} {key : Key} (h : hit.document.key s.store = .ok key) :
    ∃ row, s.row hit time = .ok row ∧
      row.toList.map Row.key = [key].filter fun key => (s.store.liveRow? key time).isSome := by
  refine ⟨(s.store.liveRow? key time).map
    (·.withCell ⟨s.column, some (.text hit.score.toText), time⟩), by rw [row, h]; rfl, ?_⟩
  cases hlive : s.store.liveRow? key time with
  | none => simp [hlive]
  | some r => simp [hlive, Row.key_withCell, Store.key_of_liveRow? hlive]

/-- The rows of hits are those of their keys, as far as they are live. -/
theorem exists_rows {hits : List Hit} {keys : List Key}
    (h : hits.mapM (·.document.key s.store) = .ok keys) :
    ∃ rows, hits.mapM (s.row · time) = .ok rows ∧
      (rows.filterMap id).map Row.key =
        keys.filter fun key => (s.store.liveRow? key time).isSome := by
  rw [mapM_eq_ok_iff] at h
  induction hits generalizing keys with
  | nil =>
    obtain rfl := List.map_eq_nil_iff.mp h.symm
    exact ⟨[], rfl, rfl⟩
  | cons hit rest ih =>
    obtain ⟨key, keys, rfl, hkey, hkeys⟩ := List.map_eq_cons_iff.mp h.symm
    obtain ⟨row, hrow, hlive⟩ := s.exists_row time hkey.symm
    obtain ⟨rows, hrows, hrest⟩ := ih hkeys.symm
    refine ⟨row :: rows, by rw [List.mapM_cons, hrow, hrows]; rfl, ?_⟩
    have hfirst : (row :: rows).filterMap id = row.toList ++ rows.filterMap id := by
      cases row <;> rfl
    rw [hfirst, List.map_append, hlive, hrest, ← List.filter_append, List.singleton_append]

/-- **The rows of a search are those of the keys that its hits carry**, as far as they are live. -/
theorem keys_of_search [SearchIndex ι] {range : TokenRange} {filter : Option Query}
    (hfilter : s.store.partitioner.rangeFilter range = .ok filter) {query : Query} {limit : Nat}
    {hits : List Hit}
    (hsearch : SearchIndex.search s.index (s.searchOf query filter limit) = .ok hits)
    {keys : List Key} (hkeys : hits.mapM (·.document.key s.store) = .ok keys) :
    ∃ rows, s.search query range limit time = .ok rows ∧
      rows.map Row.key = keys.filter fun key => (s.store.liveRow? key time).isSome := by
  obtain ⟨rows, hrows, hlive⟩ := s.exists_rows time hkeys
  refine ⟨rows.filterMap id, ?_, hlive⟩
  simp only [Service.search, hfilter, hsearch, hrows, bind, Except.bind]
  rfl

end Keys

/-! ## Keys of documents -/

/-- The keys of documents that have live rows. -/
def liveKeys (s : Service ScanIndex) (time : Int64) (documents : List Document) : List Key :=
  (documents.map s.keyOf).filter fun key => (s.store.liveRow? key time).isSome

theorem liveKeys_perm {s : Service ScanIndex} {documents documents' : List Document}
    (h : documents.Perm documents') (time : Int64) :
    (s.liveKeys time documents).Perm (s.liveKeys time documents') :=
  (h.map s.keyOf).filter _

section Sound

variable {s : Service ScanIndex} (hs : s.Sound) {range : TokenRange} {filter : Option Query}
  (hfilter : s.store.partitioner.rangeFilter range = .ok filter)

include hs

/-- What carries the key field of a document carries its key. -/
theorem Sound.key_eq {d e : Document} (hd : d ∈ s.index.documents)
    (he : e.values keyField = (d.project (s.index.loadable keyLoad)).values keyField) :
    e.key s.store = .ok (s.keyOf d) := by
  obtain ⟨bytes, hbytes⟩ := hs.carries d hd
  rw [Document.values_project, if_pos hs.contains_loadable, hbytes.key] at he
  rw [Document.key_of_values he, keyOf_of_carries hbytes]

include hfilter

/-- **A search of the service returns the rows of the documents that it finds.** -/
theorem Sound.keys_search (query : Query) (limit : Nat) (time : Int64) :
    ∃ rows, s.search query range limit time = .ok rows ∧
      rows.map Row.key = s.liveKeys time (s.index.found (s.searchOf query filter limit)) := by
  refine s.keys_of_search time hfilter rfl ?_
  have hkeys : ((s.index.search (s.searchOf query filter limit)).map Hit.document).map
      (·.key s.store) = ((s.index.found (s.searchOf query filter limit)).map s.keyOf).map .ok := by
    rw [s.index.map_document_search, List.map_map, List.map_map]
    exact List.map_congr_left fun d hd => hs.key_eq (ScanIndex.finds_of_mem_found hd).1 rfl
  rw [mapM_eq_ok_iff, ← hkeys, List.map_map]
  rfl

/-- With room for all documents, these are the ones that the query and the range allow. -/
theorem Sound.perm_keys_search (query : Query) {limit : Nat}
    (hroom : s.index.documents.length ≤ limit) (time : Int64) :
    ∃ rows, s.search query range limit time = .ok rows ∧
      (rows.map Row.key).Perm (s.liveKeys time
        (s.index.documents.filter fun d => query.finds d && filter.all (Query.finds d))) := by
  obtain ⟨rows, hsearch, hkeys⟩ := hs.keys_search hfilter query limit time
  exact ⟨rows, hsearch, hkeys ▸ liveKeys_perm (ScanIndex.perm_found hroom) time⟩

end Sound

namespace Replica

variable {s : Service ScanIndex} {s' : Service InvertedIndex} (h : Replica s s') (hs : s.Sound)
  {range : TokenRange} {filter : Option Query}
  (hfilter : s.store.partitioner.rangeFilter range = .ok filter)

include h hs hfilter

/-- **A search of the replica returns the rows of the documents that it finds.** -/
theorem keys_search {query : Query} {limit : Nat} {found : List (Document × Hit)}
    (hbest : s'.index.best (s'.searchOf query filter limit) = .ok found) (time : Int64) :
    ∃ rows, s'.search query range limit time = .ok rows ∧
      rows.map Row.key = s.liveKeys time (found.map Prod.fst) := by
  have hkeySpec : s.index.declared.find? keySpec.name = some keySpec :=
    Declarations.find?_of_ofList hs.declared (List.mem_cons_of_mem _ List.mem_cons_self)
  have hrange : s'.store.partitioner.rangeFilter range = .ok filter := h.store ▸ hfilter
  rw [liveKeys, ← h.store]
  refine s'.keys_of_search time hrange (InvertedIndex.search_of_best hbest) ?_
  rw [mapM_eq_ok_iff, List.map_map, List.map_map, List.map_map]
  refine List.map_congr_left fun f hf => ?_
  obtain ⟨hmem, hloaded⟩ := InvertedIndex.mem_of_best hbest hf
  have hd : f.1 ∈ s.index.documents := h.mirrors.visible_eq ▸ hmem
  rw [Function.comp_apply, h.store, hloaded]
  exact hs.key_eq hd (h.mirrors.values_hit (s'.searchOf query filter limit) hkeySpec rfl hd)

end Replica

/-! ## Plans -/

/-- The condition of a range is read alike by both indexes. -/
theorem portable_rangeFilter {p : Partitioner} {range : TokenRange} {filter : Option Query}
    (hfilter : p.rangeFilter range = .ok filter) {declared : Declarations}
    (hspec : declared.find? tokenField = some p.tokenSpec) (documents : List Document) :
    ∀ condition ∈ filter, condition.Portable declared documents := by
  obtain ⟨low, high, hlow, hhigh, rfl⟩ := Partitioner.rangeFilter_eq_ok_iff.mp hfilter
  have hkind {bound : Option Token} {inclusive : Bool} {b : Bound FieldValue}
      (hb : p.tokenBound bound inclusive = .ok b) : b.OfKind p.tokenSpec.kind := by
    rcases Partitioner.tokenBound_eq_ok_iff.mp hb with ⟨-, rfl⟩ | ⟨_, v, -, hv, rfl⟩
    · trivial
    · cases inclusive <;> exact Partitioner.kind_of_encode hv
  intro condition hcondition
  split at hcondition
  · contradiction
  · rename_i hopen
    obtain rfl := Option.some.inj hcondition
    rw [Query.Portable]
    exact ⟨p.tokenSpec, hspec, p.kind_tokenSpec_ne_text, hkind hlow, hkind hhigh,
      Bool.eq_false_iff.mpr hopen⟩

/-- The token field is declared as the partitioner says. -/
theorem Opened.find?_tokenField {s : Service ScanIndex} (hs : s.Opened) :
    s.index.declared.find? tokenField = some s.store.partitioner.tokenSpec :=
  Declarations.find?_of_ofList hs.declared List.mem_cons_self

/-- A limit that leaves no choice between documents of one token: there is room for all documents,
or no two of them have the same token. -/
def Determines (s : Service ScanIndex) (limit : Nat) : Prop :=
  s.index.documents.length ≤ limit ∨
    s.index.documents.Pairwise fun d e => d.values tokenField ≠ e.values tokenField

/-- Two searches that succeed; if their limit leaves no choice, their rows have the same keys. -/
def Alike (s : Service ScanIndex) (limit : Nat) (found found' : Except Error (List Row)) : Prop :=
  ∃ rows rows', found = .ok rows ∧ found' = .ok rows' ∧
    (s.Determines limit → (rows.map Row.key).Perm (rows'.map Row.key))

/-- What a replica answers to a query that it refuses: without documents or hits to give, it does
not look at the query. -/
def refused (s : Service ScanIndex) (limit : Nat) (e : Error) : Except Error (List Row) :=
  if limit = 0 ∨ s.index.documents = [] then .ok [] else .error e

namespace Replica

variable {s : Service ScanIndex} {s' : Service InvertedIndex} (h : Replica s s') (hs : s.Sound)
  {range : TokenRange} {filter : Option Query}
  (hfilter : s.store.partitioner.rangeFilter range = .ok filter) {query other : Query}

include h hs hfilter

section Planned

variable (hfits : ∀ d ∈ s.index.documents, d.Fits)

include hfits

/-- The plan of a search of the replica selects what its query and the range allow. -/
theorem exists_plan
    (hplan : query.PlannedAs s'.index.engine s'.index.bindings s.index.documents other)
    (limit : Nat) :
    ∃ plan, Plan.ofSearch s'.index.bindings (s'.searchOf query filter limit) = .ok plan ∧
      ∀ d ∈ s.index.documents, s'.index.engine.selects plan d =
        (other.finds d && filter.all (Query.finds d)) :=
  Query.exists_plan_search_of_planned (s := s'.searchOf query filter limit) hplan
    fun condition hcondition => Query.exists_plan h.mirrors.serve h.mirrors.check_visible hfits
      (portable_rangeFilter hfilter hs.find?_tokenField _ condition hcondition)

/-- The replica finds what the query finds as which its own is planned. -/
theorem exists_best
    (hplan : query.PlannedAs s'.index.engine s'.index.bindings s.index.documents other)
    (limit : Nat) :
    ∃ found, s'.index.best (s'.searchOf query filter limit) = .ok found ∧
      (s.Determines limit →
        (found.map Prod.fst).Perm (s.index.found (s.searchOf other filter limit))) := by
  have hspec := hs.find?_tokenField
  have hvisible : s'.index.visible = s.index.documents := h.mirrors.visible_eq
  obtain ⟨plan, hplan, hselects⟩ := h.exists_plan hs hfilter hfits hplan limit
  have hselected : s'.index.visible.filter (s'.index.engine.selects plan) =
      s.index.documents.filter fun d => other.finds d && filter.all (Query.finds d) := by
    rw [hvisible]
    exact List.filter_congr hselects
  obtain ⟨found, hbest⟩ := InvertedIndex.exists_best hplan
  refine ⟨found, hbest, fun hlimit => ?_⟩
  rcases hlimit with hroom | hdistinct
  · obtain ⟨found', hbest', hperm⟩ := InvertedIndex.exists_best_of_plan hplan (hvisible ▸ hroom)
    obtain rfl := Except.ok.inj (hbest.symm.trans hbest')
    have hscan : (s.index.found (s.searchOf other filter limit)).Perm
        (s.index.documents.filter fun d => other.finds d && filter.all (Query.finds d)) :=
      ScanIndex.perm_found hroom
    exact (hselected ▸ hperm).trans hscan.symm
  · have hsingle : ∀ d ∈ s.index.documents, ∃ v, d.values tokenField = [v] := by
      intro d hd
      obtain ⟨bytes, hbytes⟩ := hs.carries d hd
      obtain ⟨v, -, hv⟩ := hbytes.token
      exact ⟨v, hv⟩
    have hseparates : Criterion.Separates ⟨tokenField, false⟩ s.store.partitioner.tokenSpec.kind
        s.index.documents :=
      Criterion.separates_of_check h.mirrors.check_visible hspec hsingle hdistinct
    obtain ⟨found', hbest', hfound⟩ := InvertedIndex.best_eq h.mirrors.serve
      (hvisible ▸ h.mirrors.check_visible) rfl hspec s.store.partitioner.kind_tokenSpec_ne_text rfl
      (hvisible ▸ hseparates) (hvisible ▸ hfits) hplan
    obtain rfl := Except.ok.inj (hbest.symm.trans hbest')
    rw [hfound, hselected, ScanIndex.found_eq rfl hseparates]
    rfl

/-- **A query that is planned as another is answered alike.** -/
theorem alike_of_planned
    (hplan : query.PlannedAs s'.index.engine s'.index.bindings s.index.documents other)
    (limit : Nat) (time : Int64) :
    s.Alike limit (s.search other range limit time) (s'.search query range limit time) := by
  obtain ⟨found, hbest, hperm⟩ := h.exists_best hs hfilter hfits hplan limit
  obtain ⟨rows, hsearch, hkeys⟩ := hs.keys_search hfilter other limit time
  obtain ⟨rows', hsearch', hkeys'⟩ := h.keys_search hs hfilter hbest time
  refine ⟨rows, rows', hsearch, hsearch', fun hlimit => ?_⟩
  rw [hkeys, hkeys']
  exact (liveKeys_perm (hperm hlimit) time).symm

/-- **The replica has no regard to scores.**  Queries that find the same documents return rows of
the same keys, even where the limit leaves a choice. -/
theorem perm_keys_of_finds {query' other' : Query}
    (hplan : query.PlannedAs s'.index.engine s'.index.bindings s.index.documents other)
    (hplan' : query'.PlannedAs s'.index.engine s'.index.bindings s.index.documents other')
    (hfinds : ∀ d ∈ s.index.documents, other.finds d = other'.finds d) (limit : Nat)
    (time : Int64) :
    ∃ rows rows', s'.search query range limit time = .ok rows ∧
      s'.search query' range limit time = .ok rows' ∧
      (rows.map Row.key).Perm (rows'.map Row.key) := by
  obtain ⟨plan, hplan, hselects⟩ := h.exists_plan hs hfilter hfits hplan limit
  obtain ⟨plan', hplan', hselects'⟩ := h.exists_plan hs hfilter hfits hplan' limit
  have hselected : s'.index.selected plan = s'.index.selected plan' :=
    InvertedIndex.selected_congr fun d hd => by
      have hd : d ∈ s.index.documents := h.mirrors.visible_eq ▸ hd
      rw [hselects d hd, hselects' d hd, hfinds d hd]
  have hfast {query : Query} {plan : Plan}
      (hplan : Plan.ofSearch s'.index.bindings (s'.searchOf query filter limit) = .ok plan) :=
    InvertedIndex.exists_best_of_fast h.mirrors.serve rfl hs.find?_tokenField
      s.store.partitioner.kind_tokenSpec_ne_text rfl hplan
  obtain ⟨found, hbest, hperm⟩ := hfast hplan
  obtain ⟨found', hbest', hperm'⟩ := hfast hplan'
  obtain ⟨rows, hsearch, hkeys⟩ := h.keys_search hs hfilter hbest time
  obtain ⟨rows', hsearch', hkeys'⟩ := h.keys_search hs hfilter hbest' time
  rw [← hselected] at hperm'
  refine ⟨rows, rows', hsearch, hsearch', ?_⟩
  rw [hkeys, hkeys']
  exact liveKeys_perm (hperm.trans hperm'.symm) time

end Planned

/-- **A query with a plan is answered.** -/
theorem exists_search {plan : Plan} (hplan : Plan.ofQuery s'.index.bindings query = .ok plan)
    (limit : Nat) (time : Int64) : ∃ rows, s'.search query range limit time = .ok rows := by
  -- What is selected does not matter here, so the plan is taken as one for no documents at all.
  have hplanned : query.PlannedAs s'.index.engine s'.index.bindings [] .all := ⟨plan, hplan, nofun⟩
  obtain ⟨plan', hplan', -⟩ := Query.exists_plan_search_of_planned
    (s := s'.searchOf query filter limit) hplanned fun condition hcondition =>
      Query.exists_plan h.mirrors.serve (List.forall_mem_nil _) (List.forall_mem_nil _)
        (portable_rangeFilter hfilter hs.find?_tokenField [] condition hcondition)
  obtain ⟨found, hbest⟩ := InvertedIndex.exists_best hplan'
  obtain ⟨rows, hsearch, -⟩ := h.keys_search hs hfilter hbest time
  exact ⟨rows, hsearch⟩

omit hs

/-- **A query without a plan is refused.** -/
theorem search_of_unplanned {e : Error} (hplan : Plan.ofQuery s'.index.bindings query = .error e)
    (limit : Nat) (time : Int64) :
    s'.search query range limit time = s.refused limit e := by
  have hrange : s'.store.partitioner.rangeFilter range = .ok filter := h.store ▸ hfilter
  have hsearch : Plan.ofSearch s'.index.bindings (s'.searchOf query filter limit) = .error e := by
    rw [Plan.ofSearch]
    change (Plan.ofQuery s'.index.bindings query >>= fun _ => _) = _
    rw [hplan]
    rfl
  have hbest : s'.index.best (s'.searchOf query filter limit) =
      if limit = 0 ∨ s.index.documents = [] then .ok [] else .error e := by
    rw [InvertedIndex.best, hsearch, h.mirrors.visible_eq]
    rfl
  simp only [Service.search, hrange, bind, Except.bind]
  change Except.bind (InvertedIndex.search s'.index (s'.searchOf query filter limit)) _ = _
  rw [InvertedIndex.search, hbest, refused]
  split <;> rfl

end Replica

end RowIndex.Service
