import RowIndex.Proofs.Row.MergeOrder
import RowIndex.Proofs.Service.RingSearch

/-!
# Proofs/Service/Merging — merged rows do not tell how they were gathered

    slices in any order ──search──▸ parts ──join, sort──▸ rows
                                                           ‖
    all tokens ───────────search──▸ rows ────────sort────▸ rows

The searches of the slices of the ring find, all together, the rows that the search of all tokens
finds (`flatten_rowsWithin`), and each key once (`Sound.nodup_rowsWithin`).  Rows of different keys
sort to one list, so the slices can be searched in any order and on any number of machines: merging
by token or by score gives one result (`merging_ignores_gathering`).
-/

namespace RowIndex.Service

open Std

variable {s : Service ScanIndex}

/-- The rows that a range selects have different keys. -/
theorem Sound.nodup_rowsWithin (hs : s.Sound) (query : Query) (time : Int64) (range : TokenRange) :
    ((s.rowsWithin query time range).map Row.key).Nodup := by
  have hnodup : (s.ranked query none).Pairwise fun a b => a.1 ≠ b.1 :=
    List.pairwise_map.mp (hs.nodup_ranked query none)
  exact List.pairwise_map.mpr (pairwise_rows (hnodup.sublist List.filter_sublist))

/-- The slices of the ring, in any order, hold the rows of all tokens. -/
theorem perm_flatten_rowsWithin {p : Partitioner} {cuts : List Token}
    (h : TokenRange.Cuts p.minimum cuts) {ranges : List TokenRange}
    (hranges : ranges.Perm (p.slices cuts)) (query : Query) (time : Int64) :
    (ranges.map (s.rowsWithin query time)).flatten.Perm (s.rowsWithin query time .all) := by
  rw [← flatten_rowsWithin h]
  exact (hranges.map _).flatten

/-- Both orders of a service are orders in which rows can be merged. -/
theorem isMergeOrder_rowOrder (s : Service ScanIndex) (byScore : Bool) :
    Row.IsMergeOrder (s.rowOrder byScore) := by
  cases byScore with
  | true => exact Row.isMergeOrder_scoreOrder s.column
  | false => exact Row.isMergeOrder_tokenOrder

/-- **Searching the slices of the ring, in any order, finds the rows of all tokens**, each once. -/
theorem Sound.exists_parts (hs : s.Sound) {cuts : List Token}
    (hascending : cuts.Pairwise fun a b => compare a b = .lt)
    (hcuts : ∀ c ∈ cuts, c.isMinimum = false ∧ ∃ v, s.store.partitioner.encode c = .ok v)
    {ranges : List TokenRange} (hranges : ranges.Perm (s.store.partitioner.slices cuts))
    {limit : Nat} (hlimit : s.index.documents.length ≤ limit) (query : Query) (time : Int64) :
    ∃ parts rows, ranges.mapM (fun range => s.search query range limit time) = .ok parts ∧
      s.search query .all limit time = .ok rows ∧ parts.flatten.Perm rows ∧
      (rows.map Row.key).Nodup := by
  have hring := Partitioner.cuts_minimum (p := s.store.partitioner) hascending
    fun c hc => (hcuts c hc).1
  refine ⟨ranges.map (s.rowsWithin query time), s.rowsWithin query time .all, ?_,
    hs.search_all hlimit query time, perm_flatten_rowsWithin hring hranges query time,
    hs.nodup_rowsWithin query time .all⟩
  refine hs.mapM_search (fun range hrange => ?_) hlimit query time
  exact exists_rangeFilter_of_mem_slices (fun c hc => (hcuts c hc).2)
    (hranges.mem_iff.mp hrange)

/-- **Merged rows do not tell how they were gathered.**  By token, and by the score in any column,
rows are in a total preorder in which only rows of one key tie.  So rows of different keys sort to
one list in whichever order they come; and in every state that calls lead to, the rows of the slices
of the ring, searched in any order and joined, sort to what the rows of all tokens sort to, as long
as the limit cuts nothing off. -/
theorem merging_ignores_gathering :
    Row.IsMergeOrder Row.tokenOrder ∧ (∀ column, Row.IsMergeOrder (Row.scoreOrder column)) ∧
    (∀ order, Row.IsMergeOrder order → ∀ rows rows' : List Row, rows.Perm rows' →
      (rows.map Row.key).Nodup → Row.sortBy order rows = Row.sortBy order rows') ∧
    ∀ (d : Definition) (t : Table) (p : Partitioner) (s₀ : Service ScanIndex),
      openScan d t { partitioner := p } = .ok s₀ → ∀ (calls : List Call) (cuts : List Token),
      cuts.Pairwise (fun a b => compare a b = .lt) →
      (∀ c ∈ cuts, c.isMinimum = false ∧ ∃ v, p.encode c = .ok v) →
      ∀ ranges : List TokenRange, ranges.Perm (p.slices cuts) →
      ∀ limit, (s₀.run calls).index.documents.length ≤ limit → ∀ (query : Query) (time : Int64),
      let s := s₀.run calls
      ∃ parts rows, ranges.mapM (fun range => s.search query range limit time) = .ok parts ∧
        s.search query .all limit time = .ok rows ∧
        (∀ order, Row.IsMergeOrder order →
          Row.sortBy order parts.flatten = Row.sortBy order rows) ∧
        ∀ byScore, s.sortRows byScore parts.flatten = s.sortRows byScore rows := by
  refine ⟨Row.isMergeOrder_tokenOrder, Row.isMergeOrder_scoreOrder,
    fun order horder rows rows' => horder.sortBy_eq_of_perm, ?_⟩
  intro d t p s₀ hopen calls cuts hascending hcuts ranges hranges limit hlimit query time s
  obtain ⟨hs, hagrees⟩ := (sound_openScan hopen (Store.wellPlaced_empty p)).run calls
  have hp : s.store.partitioner = p := by rw [hagrees.partitioner, store_openScan hopen]
  subst hp
  obtain ⟨parts, rows, hparts, hrows, hperm, hkeys⟩ :=
    hs.exists_parts hascending hcuts hranges hlimit query time
  have hsort : ∀ order, Row.IsMergeOrder order →
      Row.sortBy order parts.flatten = Row.sortBy order rows := fun order horder =>
    horder.sortBy_eq_of_perm hperm ((hperm.map Row.key).nodup_iff.mpr hkeys)
  exact ⟨parts, rows, hparts, hrows, hsort, fun byScore =>
    hsort _ (s.isMergeOrder_rowOrder byScore)⟩

/-- Three slices, the last one searched first: by token and by score their rows are merged into what
one search gives.  Two rows whose scores stand for no numbers are merged as well. -/
theorem merging_ignores_gathering_of_three_slices :
    let s := sample.run sampleCalls
    let scored (bytes : Bytes) (text : String) : Row :=
      .ofCells (Partitioner.byteOrdered.place bytes) [⟨"score", some (.text text), 1⟩]
    openScan sampleDefinition sampleTable { partitioner := .byteOrdered } = .ok sample ∧
      sampleCuts.Pairwise (fun a b => compare a b = .lt) ∧
      (∀ c ∈ sampleCuts, c.isMinimum = false ∧ ∃ v, Partitioner.byteOrdered.encode c = .ok v) ∧
      s.index.documents.length = 3 ∧
      (∃ parts rows, (Partitioner.byteOrdered.slices sampleCuts).reverse.mapM
          (fun range => s.search .all range 3 100) = .ok parts ∧
        s.search .all .all 3 100 = .ok rows ∧
        ∀ byScore, s.sortRows byScore parts.flatten = s.sortRows byScore rows) ∧
      ((scored [1] "-nan").score? "score").isSome = true ∧
      (scored [2] "high").score? "score" = none ∧
      Row.sortBy (Row.scoreOrder "score") [scored [2] "high", scored [1] "-nan"] =
        Row.sortBy (Row.scoreOrder "score") [scored [1] "-nan", scored [2] "high"] := by
  intro s scored
  obtain ⟨-, hscore, hsort, hmerge⟩ := merging_ignores_gathering
  obtain ⟨parts, rows, hparts, hrows, -, hmerged⟩ :=
    hmerge sampleDefinition sampleTable .byteOrdered sample openScan_sample sampleCalls sampleCuts
      ascending_sampleCuts proper_sampleCuts _ (List.reverse_perm _) 3
      (Nat.le_of_eq length_documents_sampleCalls) .all 100
  refine ⟨openScan_sample, ascending_sampleCuts, proper_sampleCuts, length_documents_sampleCalls,
    ⟨parts, rows, hparts, hrows, hmerged⟩, by decide, by decide, ?_⟩
  exact hsort _ (hscore "score") _ _ (.swap ..) (by decide)

end RowIndex.Service
