import RowIndex.Proofs.Field.ValueOrder
import RowIndex.Proofs.Index.ScanHits
import RowIndex.Proofs.Row.Cells
import RowIndex.Proofs.Service.Run
import RowIndex.Proofs.Sorting

/-!
# Proofs/Service/Search — a search returns rows as they are now

However far the index has drifted from the store, every document of a sound service carries one
key and its token, so the hits of a search are keys with their scores, in token order (`findings`),
and reading them again cannot fail (`Sound.search_eq`).

    documents ──hits──▸ key, score ──sort, take──▸ findings ──read again──▸ rows

So a search fails only if the filter of its range does, and otherwise its rows are those that the
store has at its time, with the score put in (`search_run`).
-/

namespace RowIndex

open Std

/-- **The key of a document that carries one is the place of that key.** -/
theorem Document.key_of_values {d : Document} {bytes : Bytes}
    (h : d.values keyField = [.keyword (Hex.encode bytes)]) (store : Store) :
    d.key store = .ok (store.place bytes) := by
  have hfirst : (d.first? keyField).bind FieldValue.asString? = some (Hex.encode bytes) := by
    rw [first?, h]
    rfl
  simp only [key, hfirst, Hex.decode_encode]

namespace Service

/-! ## Keys with their scores -/

/-- The key that a document carries, as the store places it. -/
def keyOf (s : Service ScanIndex) (d : Document) : Key :=
  (d.key s.store).toOption.getD (s.store.place [])

theorem keyOf_of_carries {s : Service ScanIndex} {d : Document} {p : Partitioner} {bytes : Bytes}
    (h : d.Carries p bytes) : s.keyOf d = s.store.place bytes := by
  rw [keyOf, Document.key_of_values h.key]
  rfl

/-- What a hit amounts to: a key with its score. -/
def finding (s : Service ScanIndex) (hit : Hit) : Key × Single := (s.keyOf hit.document, hit.score)

/-- The order of found keys: by token, and at one token the highest score first. -/
def findingOrder (a b : Key × Single) : Ordering :=
  (compare a.1.token b.1.token).then (compare b.2 a.2)

instance : TransCmp findingOrder :=
  inferInstanceAs (TransCmp (compareLex (compareOn fun f : Key × Single => f.1.token)
    fun a b => compareOn Prod.snd b a))

/-- The keys that a search finds, in order. -/
def ranked (s : Service ScanIndex) (query : Query) (filter : Option Query) : List (Key × Single) :=
  ((s.index.hits query filter).map s.finding).mergeSort fun a b => (findingOrder a b).isLE

/-- The best of the keys that a search finds. -/
def findings (s : Service ScanIndex) (query : Query) (filter : Option Query) (limit : Nat) :
    List (Key × Single) := (s.ranked query filter).take limit

theorem pairwise_ranked (s : Service ScanIndex) (query : Query) (filter : Option Query) :
    (s.ranked query filter).Pairwise fun a b => (compare a.1.token b.1.token).isLE = true := by
  have hsorted := List.pairwise_mergeSort (fun a b c => TransCmp.isLE_trans)
    (Sorting.isLE_or_isLE findingOrder) ((s.index.hits query filter).map s.finding)
  exact hsorted.imp fun h => Ordering.isLE_left_of_isLE_then h

/-- No key that is left out comes before one that is found. -/
theorem mem_findings_or {s : Service ScanIndex} {query : Query} {filter : Option Query}
    {f : Key × Single} (h : f ∈ s.ranked query filter) (limit : Nat) :
    f ∈ s.findings query filter limit ∨
      ∀ g ∈ s.findings query filter limit, (compare g.1.token f.1.token).isLE = true := by
  have hsplit := List.take_append_drop limit (s.ranked query filter)
  have hordered := s.pairwise_ranked query filter
  rw [← hsplit] at h hordered
  refine (List.mem_append.mp h).imp_right fun hdrop g hg => ?_
  exact (List.pairwise_append.mp hordered).2.2 g hg f hdrop

/-- A key is found with a score: a document carries it, its token lies in the range, and the query
gives the document the score. -/
def Finds (s : Service ScanIndex) (query : Query) (range : TokenRange) (d : Document)
    (f : Key × Single) : Prop :=
  d ∈ s.index.documents ∧ s.keyOf d = f.1 ∧ range.contains f.1.token = true ∧
    query.score d = some f.2

section Ranked

variable {s : Service ScanIndex} (hs : s.Sound)

include hs

/-- The keys of different documents differ. -/
theorem Sound.pairwise_keyOf : s.index.documents.Pairwise fun d e => s.keyOf d ≠ s.keyOf e := by
  refine hs.distinct.imp_of_mem fun hd he hne heq => hne ?_
  obtain ⟨a, ha⟩ := hs.carries _ hd
  obtain ⟨b, hb⟩ := hs.carries _ he
  rw [keyOf_of_carries ha, keyOf_of_carries hb, Store.place_inj] at heq
  exact (ha.values_eq_iff hb).mpr heq

theorem Sound.nodup_ranked (query : Query) (filter : Option Query) :
    ((s.ranked query filter).map Prod.fst).Nodup := by
  rw [ranked, ((List.mergeSort_perm _ _).map Prod.fst).nodup_iff, List.map_map]
  exact List.pairwise_map.mpr (ScanIndex.pairwise_hits hs.pairwise_keyOf)

variable {range : TokenRange} {filter : Option Query}
  (hfilter : s.store.partitioner.rangeFilter range = .ok filter)

include hfilter

/-- The filter of a range passes exactly the documents whose key lies in the range. -/
theorem Sound.all_filter {d : Document} (hd : d ∈ s.index.documents) :
    filter.all (fun f => (f.score d).isSome) = range.contains (s.keyOf d).token := by
  obtain ⟨bytes, hbytes⟩ := hs.carries d hd
  obtain ⟨v, hv, hvalues⟩ := hbytes.token
  rw [keyOf_of_carries hbytes]
  exact Partitioner.rangeFilter_selects hfilter hv hvalues

/-- **A search finds the documents in its range that match its query.** -/
theorem Sound.mem_ranked {query : Query} {f : Key × Single} :
    f ∈ s.ranked query filter ↔ ∃ d, s.Finds query range d f := by
  rw [ranked, List.mem_mergeSort, List.mem_map]
  constructor
  · rintro ⟨hit, hmem, rfl⟩
    obtain ⟨hd, hall, hscore⟩ := ScanIndex.mem_hits.mp hmem
    rw [hs.all_filter hfilter hd] at hall
    exact ⟨hit.document, hd, rfl, hall, hscore⟩
  · rintro ⟨d, hd, hkey, hcontains, hscore⟩
    refine ⟨⟨d, f.2⟩, ScanIndex.mem_hits.mpr ⟨hd, ?_, hscore⟩, Prod.ext hkey rfl⟩
    rw [hs.all_filter hfilter hd, hkey, hcontains]

theorem Sound.length_ranked (query : Query) :
    (s.ranked query filter).length =
      s.index.documents.countP fun d =>
        (query.score d).isSome && range.contains (s.keyOf d).token := by
  rw [ranked, List.length_mergeSort, List.length_map, ScanIndex.length_hits]
  exact List.countP_congr fun d hd => by rw [hs.all_filter hfilter hd]

omit hfilter

/-- Hits are in the order of their keys and scores. -/
theorem Sound.order_eq {query : Query} {a b : Hit} (ha : a ∈ s.index.hits query filter)
    (hb : b ∈ s.index.hits query filter) :
    s.store.partitioner.tokenOrder.order a b = findingOrder (s.finding a) (s.finding b) := by
  obtain ⟨x, hx⟩ := hs.carries _ (ScanIndex.mem_hits.mp ha).1
  obtain ⟨y, hy⟩ := hs.carries _ (ScanIndex.mem_hits.mp hb).1
  obtain ⟨v, hv, hvalues⟩ := hx.token
  obtain ⟨w, hw, hvalues'⟩ := hy.token
  have htoken : Criterion.order ⟨tokenField, false⟩ a.document b.document =
      compare (s.keyOf a.document).token (s.keyOf b.document).token := by
    rw [keyOf_of_carries hx, keyOf_of_carries hy]
    simp only [Criterion.order, Document.first?, hvalues, hvalues', List.head?_cons,
      Partitioner.compare?_encode hv hw]
    rfl
  rw [findingOrder, finding, finding, ← htoken]
  rfl

theorem Sound.ranked_eq (query : Query) (filter : Option Query) :
    s.ranked query filter =
      (s.store.partitioner.tokenOrder.sort (s.index.hits query filter)).map s.finding := by
  rw [ranked, SortOrder.sort]
  exact (List.map_mergeSort fun a ha b hb => by rw [hs.order_eq ha hb]).symm

end Ranked

/-! ## Reading the rows of hits -/

/-- Hits carry the key field. -/
theorem Opened.contains_loadable {s : Service ScanIndex} (hs : s.Opened) :
    (s.index.loadable keyLoad).contains keyField = true := by
  have hmem : keySpec ∈ s.store.partitioner.tokenSpec :: keySpec :: s.schema.specs :=
    List.mem_cons_of_mem _ List.mem_cons_self
  have hspec : s.index.declared.find? keyField = some keySpec :=
    Declarations.find?_of_ofList hs.declared hmem
  have hload : keyLoad.find? keyField = some keyField :=
    (NameMap.find?_put ..).trans (if_pos rfl)
  rw [NameMap.contains, ScanIndex.loadable, NameMap.find?_filter, hload, Option.filter_some, hspec]
  rfl

/-- The row of a key as of a time, with a score in the score column; none if it is gone. -/
def rowOf (s : Service ScanIndex) (time : Int64) (f : Key × Single) : Option Row :=
  (s.store.liveRow? f.1 time).map (·.withCell ⟨s.column, some (.text f.2.toText), time⟩)

/-- The rows of the best keys, as of a time. -/
def rowsFound (s : Service ScanIndex) (query : Query) (filter : Option Query) (limit : Nat)
    (time : Int64) : List Row := (s.findings query filter limit).filterMap (s.rowOf time)

theorem row_eq (s : Service ScanIndex) (hit : Hit) (time : Int64) :
    s.row hit time =
      ((hit.document.key s.store).map (·, hit.score)).map (s.rowOf time) := by
  rw [row]
  cases hit.document.key s.store <;> rfl

section Search

variable {s : Service ScanIndex} (hs : s.Sound)

include hs

/-- **The hits of a search are keys with their scores**, which can all be read back. -/
theorem Sound.map_search (query : Query) (filter : Option Query) (limit : Nat) :
    (s.index.search (s.searchOf query filter limit)).map
        (fun hit => (hit.document.key s.store).map (·, hit.score)) =
      (s.findings query filter limit).map .ok := by
  rw [findings, hs.ranked_eq, ← List.map_take, List.map_map, ScanIndex.search, List.map_map]
  refine List.map_congr_left fun hit hmem => ?_
  have hhit : hit ∈ s.index.hits query filter := List.mem_mergeSort.mp (List.mem_of_mem_take hmem)
  obtain ⟨bytes, hbytes⟩ := hs.carries _ (ScanIndex.mem_hits.mp hhit).1
  have hvalues : (hit.document.project (s.index.loadable keyLoad)).values keyField =
      [.keyword (Hex.encode bytes)] := by
    rw [Document.values_project, if_pos hs.contains_loadable, hbytes.key]
  change ((hit.document.project (s.index.loadable keyLoad)).key s.store).map _ = _
  rw [Document.key_of_values hvalues, Function.comp_apply, finding, keyOf_of_carries hbytes]
  rfl

/-- **The rows of a search are those that its findings have now.** -/
theorem Sound.search_eq {range : TokenRange} {filter : Option Query}
    (hfilter : s.store.partitioner.rangeFilter range = .ok filter) (query : Query) (limit : Nat)
    (time : Int64) :
    s.search query range limit time = .ok (s.rowsFound query filter limit time) := by
  have hrows : (s.index.search (s.searchOf query filter limit)).mapM (s.row · time) =
      .ok ((s.findings query filter limit).map (s.rowOf time)) := by
    have hmap := congrArg (List.map (Except.map (s.rowOf time))) (hs.map_search query filter limit)
    rw [List.map_map, List.map_map] at hmap
    rw [mapM_eq_ok_iff, List.map_map, funext (s.row_eq · time)]
    exact hmap
  have hfilterMap : ((s.findings query filter limit).map (s.rowOf time)).filterMap id =
      s.rowsFound query filter limit time := List.filterMap_map
  rw [← hfilterMap]
  simp only [Service.search, hfilter, bind, Except.bind]
  change Except.bind ((s.index.search (s.searchOf query filter limit)).mapM (s.row · time)) _ = _
  rw [hrows]
  rfl

/-- **A search fails exactly if the filter of its range does.** -/
theorem Sound.search_eq_error_iff {query : Query} {range : TokenRange} {limit : Nat} {time : Int64}
    {e : Error} :
    s.search query range limit time = .error e ↔
      s.store.partitioner.rangeFilter range = .error e := by
  cases hfilter : s.store.partitioner.rangeFilter range with
  | ok filter =>
    rw [hs.search_eq hfilter]
    exact ⟨nofun, nofun⟩
  | error e' =>
    simp only [Service.search, hfilter, bind, Except.bind, Except.error.injEq]

end Search

/-! ## What a search returns -/

/-- The rows that a search returns for its hits, given as keys with their scores. -/
structure Fresh (s : Service ScanIndex) (range : TokenRange) (limit : Nat) (time : Int64)
    (found : List (Key × Single)) (rows : List Row) : Prop where
  /-- A hit is left out if and only if its row is gone. -/
  rows_eq : rows = found.filterMap fun f =>
    ((s.store.read f.1 time).filter (!·.isEmpty)).map
      (·.withCell ⟨s.column, some (.text f.2.toText), time⟩)
  length_le : rows.length ≤ limit
  nodup : (rows.map Row.key).Nodup
  ordered : rows.Pairwise fun a b => (compare a.key.token b.key.token).isLE = true
  in_range : ∀ row ∈ rows, range.contains row.key.token = true
  /-- A row is what the store has now, except for the score. -/
  current : ∀ row ∈ rows, ∃ stored score, (row.key, score) ∈ found ∧
    s.store.read row.key time = some stored ∧ stored.isEmpty = false ∧
    row.cell? s.column = some ⟨s.column, some (.text score.toText), time⟩ ∧
    ∀ name, name ≠ s.column → row.cell? name = stored.cell? name

variable {s : Service ScanIndex} {time : Int64}

theorem rowOf_eq_some_iff {f : Key × Single} {row : Row} :
    s.rowOf time f = some row ↔
      ∃ stored, s.store.read f.1 time = some stored ∧ stored.isEmpty = false ∧
        row = stored.withCell ⟨s.column, some (.text f.2.toText), time⟩ := by
  simp only [rowOf, Option.map_eq_some_iff, Store.liveRow?_eq_some_iff, and_assoc,
    eq_comm (a := row)]

theorem key_of_rowOf {f : Key × Single} {row : Row} (h : s.rowOf time f = some row) :
    row.key = f.1 := by
  obtain ⟨stored, hread, -, rfl⟩ := rowOf_eq_some_iff.mp h
  rw [Row.key_withCell, Store.key_of_read hread]

/-- Rows are related as the keys that were found for them. -/
theorem pairwise_rows {R : Key → Key → Prop} {found : List (Key × Single)}
    (h : found.Pairwise fun a b => R a.1 b.1) :
    (found.filterMap (s.rowOf time)).Pairwise fun a b => R a.key b.key :=
  List.pairwise_filterMap.mpr (h.imp fun hR a ha b hb => by
    rw [key_of_rowOf ha, key_of_rowOf hb]
    exact hR)

/-- The rows of a search are fresh. -/
theorem Sound.fresh (hs : s.Sound) {range : TokenRange} {filter : Option Query}
    (hfilter : s.store.partitioner.rangeFilter range = .ok filter) (query : Query) (limit : Nat) :
    s.Fresh range limit time (s.findings query filter limit)
      (s.rowsFound query filter limit time) where
  rows_eq := rfl
  length_le := Nat.le_trans (List.length_filterMap_le ..) (List.length_take_le ..)
  nodup := by
    have hnodup : (s.ranked query filter).Pairwise fun a b => a.1 ≠ b.1 :=
      List.pairwise_map.mp (hs.nodup_ranked query filter)
    exact List.pairwise_map.mpr (pairwise_rows (hnodup.sublist (List.take_sublist ..)))
  ordered :=
    pairwise_rows (R := fun a b => (compare a.token b.token).isLE = true)
      ((s.pairwise_ranked query filter).sublist (List.take_sublist ..))
  in_range row hrow := by
    obtain ⟨f, hf, hrow⟩ := List.mem_filterMap.mp hrow
    obtain ⟨d, -, -, hcontains, -⟩ := (hs.mem_ranked hfilter).mp (List.mem_of_mem_take hf)
    rw [key_of_rowOf hrow]
    exact hcontains
  current row hrow := by
    obtain ⟨f, hf, hrow⟩ := List.mem_filterMap.mp hrow
    obtain ⟨stored, hread, hne, rfl⟩ := rowOf_eq_some_iff.mp hrow
    rw [Row.key_withCell, Store.key_of_read hread]
    refine ⟨stored, f.2, hf, hread, hne, ?_, fun name hname => ?_⟩
    · rw [Row.cell?_withCell, if_pos rfl]
      rfl
    · rw [Row.cell?_withCell, if_neg hname]

/-- **A search never returns a stale row**, whatever was called before.  It fails exactly if the
filter of its range does; otherwise it returns, of the hits that the index gives, the rows that the
store has at its time. -/
theorem search_run {d : Definition} {t : Table} {p : Partitioner} {s₀ : Service ScanIndex}
    (hopen : openScan d t { partitioner := p } = .ok s₀) (calls : List Call) (query : Query)
    (range : TokenRange) (limit : Nat) (time : Int64) :
    let s := s₀.run calls
    (∀ e, s.search query range limit time = .error e ↔
      s.store.partitioner.rangeFilter range = .error e) ∧
    ∀ filter, s.store.partitioner.rangeFilter range = .ok filter →
      ∃ found rows, s.search query range limit time = .ok rows ∧
        (s.index.search (s.searchOf query filter limit)).mapM
          (fun hit => (hit.document.key s.store).map (·, hit.score)) = .ok found ∧
        s.Fresh range limit time found rows := by
  intro s
  have hs : s.Sound := ((sound_openScan hopen (Store.wellPlaced_empty p)).run calls).1
  refine ⟨fun e => hs.search_eq_error_iff, fun filter hfilter => ?_⟩
  exact ⟨_, _, hs.search_eq hfilter query limit time,
    mapM_eq_ok_iff.mpr (hs.map_search query filter limit), hs.fresh hfilter query limit⟩

/-- A row that was purged is left out, although the index still holds its document. -/
theorem search_after_purge :
    let calls : List Call := [.apply [1] (sampleWrite 7 10), .apply [2] (sampleWrite 8 10),
      .reindexAll [([1], sampleWrite 7 10), ([2], sampleWrite 8 10)] 10, .purge [2]]
    openScan sampleDefinition sampleTable { partitioner := .byteOrdered } = .ok sample ∧
      sample.store.partitioner.rangeFilter .all = .ok none ∧
      ((sample.run calls).documentsOf [2]).length = 1 ∧
      ∃ rows, (sample.run calls).search .all .all 10 100 = .ok rows ∧
        ∀ row ∈ rows, row.key ≠ ⟨.byteOrdered [2], [2]⟩ := by
  intro calls
  obtain ⟨found, rows, hsearch, -, hfresh⟩ :=
    (search_run openScan_sample calls .all .all 10 100).2 none rfl
  have hgone : (sample.run calls).store.read ⟨.byteOrdered [2], [2]⟩ 100 = none := by
    decide +kernel
  refine ⟨openScan_sample, rfl, by decide +kernel, rows, hsearch, fun row hrow heq => ?_⟩
  obtain ⟨stored, score, -, hread, -⟩ := hfresh.current row hrow
  rw [heq, hgone] at hread
  contradiction

end Service

end RowIndex
