import Mathlib.Data.List.Nodup
import RowIndex.Proofs.Service.Search

/-!
# Proofs/Service/ExactSearch — in step with the store, a search is exact

If the index holds the documents of the live rows and nothing else (`InSync`), then a search returns
the first of the matching rows in token order, as many as its limit allows, each with the score
that the query gives its document (`search_exact`).
-/

namespace RowIndex.Service

open Std

/-! ## Indexes in step with their store -/

/-- The live rows of the store. -/
def liveRows (s : Service ScanIndex) : List Row :=
  s.store.keys.filterMap (s.store.liveRow? · Int64.maxValue)

/-- The index holds exactly the documents of the live rows. -/
def InSync (s : Service ScanIndex) : Prop :=
  ∃ documents, s.liveRows.mapM s.document = .ok documents ∧ s.index.documents.Perm documents

/-- The score that a query gives the document of a row. -/
def scoreOf? (s : Service ScanIndex) (query : Query) (r : Row) : Option Single :=
  (s.document r).toOption.bind fun d => query.score d

/-- The live rows whose token lies in a range and whose document matches a query. -/
def matching (s : Service ScanIndex) (query : Query) (range : TokenRange) : List Row :=
  s.liveRows.filter fun r => (s.scoreOf? query r).isSome && range.contains r.key.token

section Opened

variable {s : Service ScanIndex} (hs : s.Opened)

include hs

theorem Opened.pairwise_liveRows : s.liveRows.Pairwise fun a b => a.key ≠ b.key := by
  refine List.pairwise_filterMap.mpr (hs.placed.nodup.imp fun hne a ha b hb => ?_)
  rw [Store.key_of_liveRow? ha, Store.key_of_liveRow? hb]
  exact hne

/-- The live rows are those that are read under their keys. -/
theorem Opened.mem_liveRows {r : Row} :
    r ∈ s.liveRows ↔ s.store.liveRow? r.key Int64.maxValue = some r := by
  rw [liveRows, List.mem_filterMap]
  constructor
  · rintro ⟨key, -, hrow⟩
    rwa [Store.key_of_liveRow? hrow]
  · intro hrow
    obtain ⟨p, hp, -⟩ := Option.map_eq_some_iff.mp (Store.liveRow?_eq_some_iff.mp hrow).1
    exact ⟨r.key, List.mem_map_of_mem (hs.placed.mem_iff.mpr hp), hrow⟩

theorem Opened.key_of_mem_liveRows {r : Row} (hr : r ∈ s.liveRows) :
    r.key = s.store.place r.key.bytes := by
  obtain ⟨key, hkey, hrow⟩ := List.mem_filterMap.mp hr
  rw [Store.key_of_liveRow? hrow]
  exact hs.placed.placed key hkey

/-- The document of a live row carries the key of the row. -/
theorem Opened.carries_of_mem_liveRows {r : Row} (hr : r ∈ s.liveRows) {d : Document}
    (hd : s.document r = .ok d) : d.Carries s.store.partitioner r.key.bytes :=
  hs.carries_document (hs.key_of_mem_liveRows hr) hd

theorem Opened.keyOf_of_mem_liveRows {r : Row} (hr : r ∈ s.liveRows) {d : Document}
    (hd : s.document r = .ok d) : s.keyOf d = r.key :=
  (keyOf_of_carries (hs.carries_of_mem_liveRows hr hd)).trans (hs.key_of_mem_liveRows hr).symm

/-- **A service in step with its store is sound.** -/
theorem Opened.sound (hsync : s.InSync) : s.Sound := by
  obtain ⟨documents, hmapM, hperm⟩ := hsync
  refine { hs with carries := fun d hd => ?_, distinct := ?_ }
  · obtain ⟨r, hr, hdoc⟩ := exists_of_mem_mapM hmapM (hperm.mem_iff.mp hd)
    exact ⟨_, hs.carries_of_mem_liveRows hr hdoc⟩
  · refine (hperm.pairwise_iff fun h => Ne.symm h).mpr (pairwise_of_mapM hmapM ?_)
    refine hs.pairwise_liveRows.imp_of_mem fun ha hb hne d e hd he heq => hne ?_
    have hbytes := ((hs.carries_of_mem_liveRows ha hd).values_eq_iff
      (hs.carries_of_mem_liveRows hb he)).mp heq
    rw [hs.key_of_mem_liveRows ha, hs.key_of_mem_liveRows hb, hbytes]

end Opened

/-! ## What a search in step returns -/

theorem mem_matching {s : Service ScanIndex} {query : Query} {range : TokenRange} {r : Row} :
    r ∈ s.matching query range ↔
      r ∈ s.liveRows ∧ range.contains r.key.token = true ∧ ∃ d score, s.document r = .ok d ∧
        query.score d = some score ∧ s.scoreOf? query r = some score := by
  rw [matching, List.mem_filter, Bool.and_eq_true, scoreOf?]
  cases hdoc : s.document r with
  | error e => simp [Except.toOption]
  | ok d =>
    simp only [Except.toOption, Option.bind_some, Option.isSome_iff_exists, Except.ok.injEq]
    constructor
    · rintro ⟨hr, ⟨score, hscore⟩, hcontains⟩
      exact ⟨hr, hcontains, d, score, rfl, hscore, hscore⟩
    · rintro ⟨hr, hcontains, d, score, rfl, hscore, -⟩
      exact ⟨hr, ⟨score, hscore⟩, hcontains⟩

/-- The score column has no part in the score. -/
theorem Opened.scoreOf?_withCell {s : Service ScanIndex} (hs : s.Opened) (query : Query) (r : Row)
    {c : Cell} (hc : c.name = s.column) : s.scoreOf? query (r.withCell c) = s.scoreOf? query r := by
  rw [scoreOf?, scoreOf?, hs.document_withCell r hc]

section InSync

variable {s : Service ScanIndex} (hs : s.Opened) (hsync : s.InSync) {query : Query}
  {range : TokenRange}

include hs

include hsync

/-- A document of the index is that of a live row. -/
theorem InSync.exists_row {d : Document} (hd : d ∈ s.index.documents) :
    ∃ r ∈ s.liveRows, s.document r = .ok d ∧ s.keyOf d = r.key := by
  obtain ⟨documents, hmapM, hperm⟩ := hsync
  obtain ⟨r, hr, hdoc⟩ := exists_of_mem_mapM hmapM (hperm.mem_iff.mp hd)
  exact ⟨r, hr, hdoc, hs.keyOf_of_mem_liveRows hr hdoc⟩

/-- What a search finds are the matching rows. -/
theorem InSync.exists_matching {d : Document} {f : Key × Single} (h : s.Finds query range d f) :
    ∃ r ∈ s.matching query range, r.key = f.1 ∧ s.scoreOf? query r = some f.2 := by
  obtain ⟨hd, hkey, hcontains, hscore⟩ := h
  obtain ⟨r, hr, hdoc, hkey'⟩ := hsync.exists_row hs hd
  have hrkey : r.key = f.1 := hkey'.symm.trans hkey
  have hscoreOf : s.scoreOf? query r = some f.2 := by
    rw [scoreOf?, hdoc]
    exact hscore
  exact ⟨r, mem_matching.mpr ⟨hr, hrkey ▸ hcontains, d, f.2, hdoc, hscore, hscoreOf⟩, hrkey,
    hscoreOf⟩

/-- Every matching row is found. -/
theorem InSync.exists_finds {r : Row} (hr : r ∈ s.matching query range) :
    ∃ d score, s.Finds query range d (r.key, score) := by
  obtain ⟨hlive, hcontains, d, score, hdoc, hscore, -⟩ := mem_matching.mp hr
  obtain ⟨documents, hmapM, hperm⟩ := hsync
  obtain ⟨d', hd', hdoc'⟩ := exists_of_mapM_of_mem hmapM hlive
  obtain rfl : d = d' := Except.ok.inj (hdoc.symm.trans hdoc')
  exact ⟨d, score, hperm.mem_iff.mpr hd', hs.keyOf_of_mem_liveRows hlive hdoc, hcontains, hscore⟩

/-- There are as many documents to be found as matching rows. -/
theorem InSync.countP_eq :
    (s.index.documents.countP fun d =>
        (query.score d).isSome && range.contains (s.keyOf d).token) =
      (s.matching query range).length := by
  obtain ⟨documents, hmapM, hperm⟩ := hsync
  rw [hperm.countP_eq, countP_of_mapM hmapM, matching, ← List.countP_eq_length_filter]
  refine List.countP_congr fun r hr => ?_
  rw [scoreOf?]
  cases hdoc : s.document r with
  | error e => simp [Except.toOption]
  | ok d => simp [Except.toOption, hs.keyOf_of_mem_liveRows hr hdoc]

variable {filter : Option Query} (hfilter : s.store.partitioner.rangeFilter range = .ok filter)

include hfilter

/-- Reading what is found gives a matching row, with its score put in. -/
theorem InSync.exists_rowOf {f : Key × Single}
    (hf : f ∈ s.ranked query filter) :
    ∃ r ∈ s.matching query range, r.key = f.1 ∧ s.scoreOf? query r = some f.2 ∧
      s.rowOf Int64.maxValue f =
        some (r.withCell ⟨s.column, some (.text f.2.toText), Int64.maxValue⟩) := by
  obtain ⟨d, hfinds⟩ := ((hs.sound hsync).mem_ranked hfilter).mp hf
  obtain ⟨r, hr, hkey, hscore⟩ := hsync.exists_matching hs hfinds
  refine ⟨r, hr, hkey, hscore, ?_⟩
  rw [rowOf, ← hkey, hs.mem_liveRows.mp (mem_matching.mp hr).1]
  rfl

/-- A row that is returned is a matching one, with its score put in. -/
theorem InSync.exists_of_mem_rowsFound {limit : Nat} {row : Row}
    (hrow : row ∈ s.rowsFound query filter limit Int64.maxValue) :
    ∃ r ∈ s.matching query range, ∃ score,
      row = r.withCell ⟨s.column, some (.text score.toText), Int64.maxValue⟩ ∧
        s.scoreOf? query r = some score := by
  obtain ⟨f, hf, hrow⟩ := List.mem_filterMap.mp hrow
  obtain ⟨r, hr, -, hscore, heq⟩ := hsync.exists_rowOf hs hfilter (List.mem_of_mem_take hf)
  rw [heq, Option.some.injEq] at hrow
  exact ⟨r, hr, f.2, hrow.symm, hscore⟩

/-- Every key that is found has a row. -/
theorem InSync.length_rowsFound (limit : Nat) :
    (s.rowsFound query filter limit Int64.maxValue).length =
      min limit (s.matching query range).length := by
  have hall : ∀ f ∈ s.findings query filter limit,
      (s.rowOf Int64.maxValue f).isSome = true := by
    intro f hf
    obtain ⟨r, -, -, -, heq⟩ := hsync.exists_rowOf hs hfilter (List.mem_of_mem_take hf)
    rw [heq]
    rfl
  rw [rowsFound, List.length_filterMap_eq_countP, List.countP_eq_length.mpr hall, findings,
    List.length_take, (hs.sound hsync).length_ranked hfilter, hsync.countP_eq hs]

/-- If the tokens of the matching rows differ, the rows that are returned ascend strictly. -/
theorem InSync.pairwise_rowsFound (limit : Nat)
    (hdistinct : ((s.matching query range).map (·.key.token)).Nodup) :
    (s.rowsFound query filter limit Int64.maxValue).Pairwise fun a b =>
      compare a.key b.key = .lt := by
  have hfresh : s.Fresh range limit Int64.maxValue _ _ :=
    (hs.sound hsync).fresh hfilter query limit
  refine (hfresh.ordered.and (List.pairwise_map.mp hfresh.nodup)).imp_of_mem ?_
  rintro a b ha hb ⟨hle, hne⟩
  obtain ⟨ra, hra, _, rfl, -⟩ := hsync.exists_of_mem_rowsFound hs hfilter ha
  obtain ⟨rb, hrb, _, rfl, -⟩ := hsync.exists_of_mem_rowsFound hs hfilter hb
  rw [Row.key_withCell, Row.key_withCell] at hle hne ⊢
  refine Key.compare_eq_lt hle fun heq => hne ?_
  exact congrArg Row.key (List.inj_on_of_nodup_map hdistinct hra hrb heq)

/-- No matching row that is left out comes before one that is returned. -/
theorem InSync.isLE_of_left_out {limit : Nat} {r row : Row}
    (hr : r ∈ s.matching query range)
    (hout : r.key ∉ (s.rowsFound query filter limit Int64.maxValue).map Row.key)
    (hrow : row ∈ s.rowsFound query filter limit Int64.maxValue) :
    (compare row.key.token r.key.token).isLE = true := by
  obtain ⟨d, score, hfinds⟩ := hsync.exists_finds hs hr
  have hranked := ((hs.sound hsync).mem_ranked hfilter).mpr ⟨d, hfinds⟩
  rcases mem_findings_or hranked limit with hfound | hle
  · obtain ⟨r', -, hkey, -, heq⟩ := hsync.exists_rowOf hs hfilter hranked
    have hmem := List.mem_map_of_mem (f := Row.key) (List.mem_filterMap.mpr ⟨_, hfound, heq⟩)
    rw [Row.key_withCell, hkey] at hmem
    contradiction
  · obtain ⟨f, hf, hrow⟩ := List.mem_filterMap.mp hrow
    rw [key_of_rowOf hrow]
    exact hle f hf

end InSync

/-- What an exact search returns. -/
structure Exact (s : Service ScanIndex) (query : Query) (range : TokenRange) (limit : Nat)
    (rows : List Row) : Prop where
  length : rows.length = min limit (s.matching query range).length
  /-- A row is a matching one, with the score of its document put in. -/
  matched : ∀ row ∈ rows, ∃ r ∈ s.matching query range, ∃ score,
    row = r.withCell ⟨s.column, some (.text score.toText), Int64.maxValue⟩ ∧
      s.scoreOf? query r = some score ∧ s.scoreOf? query row = some score
  nodup : (rows.map Row.key).Nodup
  ordered : rows.Pairwise fun a b => (compare a.key.token b.key.token).isLE = true
  /-- Rows of different tokens are in strict order. -/
  ascending : ((s.matching query range).map (·.key.token)).Nodup →
    rows.Pairwise fun a b => compare a.key b.key = .lt
  /-- No row that is left out comes before one that is returned. -/
  left_out : ∀ r ∈ s.matching query range, r.key ∉ rows.map Row.key →
    ∀ row ∈ rows, (compare row.key.token r.key.token).isLE = true

/-- **In step with the store, a search is exact.** -/
theorem search_exact {s : Service ScanIndex} (hs : s.Opened) (hsync : s.InSync) {range : TokenRange}
    {filter : Option Query} (hfilter : s.store.partitioner.rangeFilter range = .ok filter)
    (query : Query) (limit : Nat) :
    ∃ rows, s.search query range limit Int64.maxValue = .ok rows ∧
      s.Exact query range limit rows := by
  have hsound := hs.sound hsync
  have hfresh : s.Fresh range limit Int64.maxValue _ _ := hsound.fresh hfilter query limit
  refine ⟨_, hsound.search_eq hfilter query limit Int64.maxValue, ?_⟩
  constructor
  case length => exact hsync.length_rowsFound hs hfilter limit
  case nodup => exact hfresh.nodup
  case ordered => exact hfresh.ordered
  case ascending => exact hsync.pairwise_rowsFound hs hfilter limit
  case left_out => exact fun r hr hout row => hsync.isLE_of_left_out hs hfilter hr hout
  case matched =>
    intro row hrow
    obtain ⟨r, hr, score, rfl, hscore⟩ := hsync.exists_of_mem_rowsFound hs hfilter hrow
    exact ⟨r, hr, score, rfl, hscore, (hs.scoreOf?_withCell query r rfl).trans hscore⟩

/-- One row of a slice of the ring, whose documents were indexed in another order. -/
theorem search_slice :
    let s := sample.run [.apply [1] (sampleWrite 7 10), .apply [2] (sampleWrite 8 10),
      .apply [3] (sampleWrite 9 10),
      .reindexAll [([3], sampleWrite 9 10), ([1], sampleWrite 7 10), ([2], sampleWrite 8 10)] 10]
    let range : TokenRange := .leftOpen (.byteOrdered [1]) (.byteOrdered [3])
    s.Opened ∧ s.InSync ∧ (s.matching .all range).length = 2 ∧
      ∃ rows, s.search .all range 1 Int64.maxValue = .ok rows ∧ s.Exact .all range 1 rows ∧
        rows.length = 1 := by
  intro s range
  have hs : s.Opened :=
    ((sound_openScan openScan_sample (Store.wellPlaced_empty _)).run _).1.toOpened
  have hsync : s.InSync := by
    refine ⟨[⟨[⟨tokenField, .keyword "01"⟩, ⟨keyField, .keyword "01"⟩, ⟨"n", .long 7⟩]⟩,
      ⟨[⟨tokenField, .keyword "02"⟩, ⟨keyField, .keyword "02"⟩, ⟨"n", .long 8⟩]⟩,
      ⟨[⟨tokenField, .keyword "03"⟩, ⟨keyField, .keyword "03"⟩, ⟨"n", .long 9⟩]⟩], ?_, ?_⟩ <;>
      decide +kernel
  have hfilter : s.store.partitioner.rangeFilter range = .ok (some
      (.range tokenField (.excluded (.keyword "01")) (.included (.keyword "03")))) := rfl
  have hmatching : (s.matching .all range).length = 2 := by decide +kernel
  obtain ⟨rows, hsearch, hexact⟩ := search_exact hs hsync hfilter .all 1
  refine ⟨hs, hsync, hmatching, rows, hsearch, hexact, ?_⟩
  rw [hexact.length, hmatching]
  rfl

end RowIndex.Service
