import RowIndex.Proofs.Service.Search
import RowIndex.Proofs.Token.RangeFilter
import RowIndex.Proofs.Token.Ring

/-!
# Proofs/Service/RingSearch — searching the ring slice by slice

A range only selects among the keys that a search finds, and leaves them in their order, keys of one
token included (`Sound.ranked_eq_filter`).  So if the limit cuts nothing off, the searches of the
slices of the ring give together what the search of all tokens gives (`search_slices`).

    slices ──search──▸ rows of ( min t₁ ], ( t₁ t₂ ], …, ( tₙ min ] ──join──▸ rows of all tokens
-/

namespace RowIndex

open Std

namespace ScanIndex

/-- A filter selects among the hits. -/
theorem hits_eq_filter (ix : ScanIndex) (query : Query) (filter : Option Query) :
    ix.hits query filter =
      (ix.hits query none).filter fun hit => filter.all fun f => (f.score hit.document).isSome := by
  have hall : ix.hits query none =
      ix.documents.filterMap fun d => (query.score d).map fun score => ⟨d, score⟩ := by
    rw [hits]
    exact congrArg _ (List.filter_eq_self.mpr fun _ _ => rfl)
  rw [hall, hits, List.filterMap_filter, List.filter_filterMap]
  refine List.filterMap_congr fun d _ => ?_
  cases query.score d with
  | none => simp
  | some score => simp [Option.filter_some]

theorem length_hits_le (ix : ScanIndex) (query : Query) (filter : Option Query) :
    (ix.hits query filter).length ≤ ix.documents.length := by
  rw [length_hits]
  exact List.countP_le_length

end ScanIndex

namespace Service

variable {s : Service ScanIndex}

/-- **A range selects among the keys that a search finds**, and leaves them in their order. -/
theorem Sound.ranked_eq_filter (hs : s.Sound) {range : TokenRange} {filter : Option Query}
    (hfilter : s.store.partitioner.rangeFilter range = .ok filter) (query : Query) :
    s.ranked query filter =
      (s.ranked query none).filter fun f => range.contains f.1.token := by
  have hhits : s.index.hits query filter = (s.index.hits query none).filter fun hit =>
      range.contains (s.keyOf hit.document).token := by
    rw [ScanIndex.hits_eq_filter]
    exact List.filter_congr fun hit hmem => hs.all_filter hfilter (ScanIndex.mem_hits.mp hmem).1
  rw [ranked, ranked, hhits, Sorting.filter_mergeSort (fun a b c => TransCmp.isLE_trans)
    (Sorting.isLE_or_isLE findingOrder), List.filter_map]
  rfl

theorem length_ranked_le (s : Service ScanIndex) (query : Query) (filter : Option Query) :
    (s.ranked query filter).length ≤ s.index.documents.length := by
  rw [ranked, List.length_mergeSort, List.length_map]
  exact s.index.length_hits_le query filter

/-- The rows that a range selects, when the limit cuts nothing off. -/
def rowsWithin (s : Service ScanIndex) (query : Query) (time : Int64) (range : TokenRange) :
    List Row :=
  ((s.ranked query none).filter fun f => range.contains f.1.token).filterMap (s.rowOf time)

/-- If the limit cuts nothing off, a search returns the rows that its range selects. -/
theorem Sound.search_eq_rowsWithin (hs : s.Sound) {range : TokenRange} {filter : Option Query}
    (hfilter : s.store.partitioner.rangeFilter range = .ok filter) {limit : Nat}
    (hlimit : s.index.documents.length ≤ limit) (query : Query) (time : Int64) :
    s.search query range limit time = .ok (s.rowsWithin query time range) := by
  have hlength := Nat.le_trans (s.length_ranked_le query filter) hlimit
  rw [hs.search_eq hfilter, rowsFound, findings, List.take_of_length_le hlength,
    hs.ranked_eq_filter hfilter, rowsWithin]

/-- Searching several ranges gives the rows that each selects. -/
theorem Sound.mapM_search (hs : s.Sound) {ranges : List TokenRange}
    (hranges : ∀ range ∈ ranges, ∃ filter, s.store.partitioner.rangeFilter range = .ok filter)
    {limit : Nat} (hlimit : s.index.documents.length ≤ limit) (query : Query) (time : Int64) :
    ranges.mapM (fun range => s.search query range limit time) =
      .ok (ranges.map (s.rowsWithin query time)) := by
  rw [mapM_eq_ok_iff, List.map_map]
  refine List.map_congr_left fun range hrange => ?_
  obtain ⟨filter, hfilter⟩ := hranges range hrange
  exact hs.search_eq_rowsWithin hfilter hlimit query time

/-- The search of all tokens gives the rows that all tokens select. -/
theorem Sound.search_all (hs : s.Sound) {limit : Nat}
    (hlimit : s.index.documents.length ≤ limit) (query : Query) (time : Int64) :
    s.search query .all limit time = .ok (s.rowsWithin query time .all) :=
  hs.search_eq_rowsWithin rfl hlimit query time

/-- **The rows of all tokens are those of the slices**, one after another. -/
theorem flatten_rowsWithin {p : Partitioner} {cuts : List Token}
    (h : TokenRange.Cuts p.minimum cuts) (query : Query) (time : Int64) :
    ((p.slices cuts).map (s.rowsWithin query time)).flatten = s.rowsWithin query time .all := by
  have hslices := Partitioner.flatMap_slices h (s.pairwise_ranked query none)
  have hall : (s.ranked query none).filter (fun f => TokenRange.all.contains f.1.token) =
      s.ranked query none := List.filter_eq_self.mpr fun _ _ => rfl
  calc ((p.slices cuts).map (s.rowsWithin query time)).flatten
      = ((p.slices cuts).flatMap fun range => (s.ranked query none).filter fun f =>
          range.contains f.1.token).filterMap (s.rowOf time) := by
        rw [List.filterMap_flatMap, List.flatMap_def]
        rfl
    _ = (s.ranked query none).filterMap (s.rowOf time) := by rw [hslices]
    _ = s.rowsWithin query time .all := by rw [rowsWithin, hall]

/-- The slices of the ring can be searched if their cuts have field values. -/
theorem exists_rangeFilter_of_mem_slices {p : Partitioner} {cuts : List Token}
    (hcuts : ∀ c ∈ cuts, ∃ v, p.encode c = .ok v) {range : TokenRange}
    (hrange : range ∈ p.slices cuts) : ∃ filter, p.rangeFilter range = .ok filter := by
  obtain ⟨a, ha, b, hb, rfl⟩ := TokenRange.mem_slicesBetween hrange
  have hbound {c : Token} (hc : c ∈ p.minimum :: cuts) :
      c.isMinimum = true ∨ ∃ v, p.encode c = .ok v := by
    rcases List.mem_cons.mp hc with rfl | hc
    · exact Or.inl p.isMinimum_minimum
    · exact Or.inr (hcuts c hc)
  refine Partitioner.exists_rangeFilter_iff.mpr fun c hc => ?_
  rcases hc with hc | hc
  · exact Option.some.inj hc ▸ hbound ha
  · exact Option.some.inj hc ▸ hbound hb

/-- **Slicing the ring loses and duplicates nothing.**  Every token lies in exactly one slice, and
in every state that calls lead to the rows of the slices, one after another, are the rows of all
tokens, as long as the limit cuts nothing off. -/
theorem search_slices {d : Definition} {t : Table} {p : Partitioner} {s₀ : Service ScanIndex}
    (hopen : openScan d t { partitioner := p } = .ok s₀) (calls : List Call) {cuts : List Token}
    (hascending : cuts.Pairwise fun a b => compare a b = .lt)
    (hcuts : ∀ c ∈ cuts, c.isMinimum = false ∧ ∃ v, p.encode c = .ok v) {limit : Nat}
    (hlimit : (s₀.run calls).index.documents.length ≤ limit) (query : Query) (time : Int64) :
    let s := s₀.run calls
    (∀ token, (p.slices cuts).countP (·.contains token) = 1) ∧
    ∃ parts, (p.slices cuts).mapM (fun range => s.search query range limit time) = .ok parts ∧
      s.search query .all limit time = .ok parts.flatten := by
  intro s
  obtain ⟨hs, hagrees⟩ := (sound_openScan hopen (Store.wellPlaced_empty p)).run calls
  have hp : s.store.partitioner = p := by rw [hagrees.partitioner, store_openScan hopen]
  have hring := Partitioner.cuts_minimum (p := p) hascending fun c hc => (hcuts c hc).1
  refine ⟨Partitioner.countP_slices hring, (p.slices cuts).map (s.rowsWithin query time), ?_, ?_⟩
  · refine hs.mapM_search (fun range hrange => ?_) hlimit query time
    rw [hp]
    exact exists_rangeFilter_of_mem_slices (fun c hc => (hcuts c hc).2) hrange
  · rw [flatten_rowsWithin hring]
    exact hs.search_all hlimit query time

/-- Three rows are written, and then brought up to date together. -/
def sampleCalls : List Call :=
  [.apply [2] (sampleWrite 8 10), .apply [] (sampleWrite 7 10), .apply [3] (sampleWrite 9 10),
    .reindexAll [([3], sampleWrite 9 10), ([2], sampleWrite 8 10), ([], sampleWrite 7 10)] 10]

/-- Two cuts of the ring, the first at the token of a row. -/
def sampleCuts : List Token := [.byteOrdered [2], .byteOrdered [2, 1]]

theorem length_documents_sampleCalls : (sample.run sampleCalls).index.documents.length = 3 := by
  decide

theorem ascending_sampleCuts : sampleCuts.Pairwise fun a b => compare a b = .lt := by
  decide

theorem proper_sampleCuts :
    ∀ c ∈ sampleCuts, c.isMinimum = false ∧ ∃ v, Partitioner.byteOrdered.encode c = .ok v := by
  intro c hc
  rcases List.mem_cons.mp hc with rfl | hc
  · exact ⟨by decide, _, rfl⟩
  · rw [List.mem_singleton.mp hc]
    exact ⟨by decide, _, rfl⟩

/-- Three slices of a ring: the row of the empty key, whose token is the sentinel, is in the first
one, and a row at a cut in the slice that ends there. -/
theorem search_slices_of_two_cuts :
    let calls : List Call := [.apply [2] (sampleWrite 8 10), .apply [] (sampleWrite 7 10),
      .apply [3] (sampleWrite 9 10),
      .reindexAll [([3], sampleWrite 9 10), ([2], sampleWrite 8 10), ([], sampleWrite 7 10)] 10]
    let cuts : List Token := [.byteOrdered [2], .byteOrdered [2, 1]]
    let holding (bytes : Bytes) : List Bool :=
      (Partitioner.byteOrdered.slices cuts).map (·.contains (.byteOrdered bytes))
    openScan sampleDefinition sampleTable { partitioner := .byteOrdered } = .ok sample ∧
      cuts.Pairwise (fun a b => compare a b = .lt) ∧
      (∀ c ∈ cuts, c.isMinimum = false ∧ ∃ v, Partitioner.byteOrdered.encode c = .ok v) ∧
      (sample.run calls).index.documents.length = 3 ∧
      holding [] = [true, false, false] ∧ holding [2] = [true, false, false] ∧
      holding [3] = [false, false, true] ∧
      ∃ parts, (Partitioner.byteOrdered.slices cuts).mapM
          (fun range => (sample.run calls).search .all range 3 100) = .ok parts ∧
        (sample.run calls).search .all .all 3 100 = .ok parts.flatten := by
  intro calls cuts holding
  have hlimit : (sample.run calls).index.documents.length ≤ 3 :=
    Nat.le_of_eq length_documents_sampleCalls
  exact ⟨openScan_sample, ascending_sampleCuts, proper_sampleCuts, length_documents_sampleCalls,
    by decide, by decide, by decide,
    (search_slices openScan_sample calls ascending_sampleCuts proper_sampleCuts hlimit .all 100).2⟩

end Service

end RowIndex
