import RowIndex.Proofs.Decimal.ShortestText
import RowIndex.Proofs.Row.Cells
import RowIndex.Proofs.Row.MergeOrder
import RowIndex.Proofs.Service.RingSearch

/-!
# Proofs/Service/ScoreColumn — a found row carries its score unchanged

    hit ──score──▸ text ──put into the row──▸ row ──score column──▸ text ──numeral──▸ the same score

The score of a hit is written as text into a column of the row, and read from there when rows are
merged.  Its text reads back as the same bit pattern (`Binary.ofText?_toText`), and the column is
found by its name wherever it was put (`Row.cell?_withCell`).  So a rebuilt row has the score of its
hit (`Service.Rebuilt.score?_eq`), and rows that are merged by score are in the order of their hits
(`Service.scores_survive`).
-/

namespace RowIndex

/-- A score that was put into a row is read from it. -/
theorem Row.score?_withCell {column : String} {score : Single} (h : score.isNaN = false) (r : Row)
    (time : Int64) :
    (r.withCell ⟨column, some (.text score.toText), time⟩).score? column = some score := by
  rw [score?, value?, cell?_withCell, if_pos rfl]
  exact Binary.ofText?_toText (by decide) h

namespace Service

open Std

/-- A row that a service with the given score column has rebuilt for a hit, as of some time. -/
def Rebuilt (column : String) (hit : Hit) (r : Row) : Prop :=
  ∃ (ι : Type) (s : Service ι) (time : Int64), s.column = column ∧ s.row hit time = .ok (some r)

/-- The order of hits with their rows: the highest score first, and hits of one score by key. -/
def hitOrder (a b : Hit × Row) : Ordering :=
  (compare b.1.score a.1.score).then (compare a.2.key b.2.key)

instance : TransCmp hitOrder :=
  inferInstanceAs (TransCmp (compareLex (fun a b => compareOn (Hit.score ∘ Prod.fst) b a)
    (compareOn (Row.key ∘ Prod.snd))))

/-- The row of a hit is the row of its key with the score, if there is one with live cells. -/
theorem row_eq_ok_some_iff {ι : Type} {s : Service ι} {hit : Hit} {time : Int64} {r : Row} :
    s.row hit time = .ok (some r) ↔ ∃ key stored, hit.document.key s.store = .ok key ∧
      s.store.read key time = some stored ∧ stored.isEmpty = false ∧
      stored.withCell ⟨s.column, some (.text hit.score.toText), time⟩ = r := by
  simp only [row, bind_eq_ok_iff, pure, Except.pure, Except.ok.injEq, Option.map_eq_some_iff,
    Option.filter_eq_some_iff, Bool.not_eq_true', and_assoc, exists_and_left]

/-- A hit is not after another if its score is higher, or the same and its key not after. -/
theorem isLE_hitOrder_iff {a b : Hit × Row} : (hitOrder a b).isLE = true ↔
    b.1.score.rank < a.1.score.rank ∨
      a.1.score = b.1.score ∧ (compare a.2.key b.2.key).isLE = true := by
  have hless : compare b.1.score a.1.score = .lt ↔ b.1.score.rank < a.1.score.rank :=
    compare_eq_lt (α := Int)
  rw [hitOrder, Ordering.isLE_then_iff_or, hless, LawfulEqOrd.compare_eq_iff_eq,
    eq_comm (a := b.1.score)]

/-- **A rebuilt row has the score of its hit.** -/
theorem Rebuilt.score?_eq {column : String} {hit : Hit} {r : Row} (h : Rebuilt column hit r)
    (hscore : hit.score.isNaN = false) : r.score? column = some hit.score := by
  obtain ⟨ι, s, time, rfl, hrow⟩ := h
  obtain ⟨-, stored, -, -, -, rfl⟩ := row_eq_ok_some_iff.mp hrow
  exact Row.score?_withCell hscore stored time

/-- Rebuilt rows compare by score as their hits do. -/
theorem scoreOrder_eq_hitOrder {column : String} {a b : Hit × Row}
    (ha : Rebuilt column a.1 a.2) (hb : Rebuilt column b.1 b.2) (hascore : a.1.score.isNaN = false)
    (hbscore : b.1.score.isNaN = false) : Row.scoreOrder column a.2 b.2 = hitOrder a b := by
  rw [Row.scoreOrder_eq, ha.score?_eq hascore, hb.score?_eq hbscore]
  rfl

/-- **A found row carries its score unchanged.**  The row of a hit whose key has live cells has the
score of the hit, bit by bit, unless that is no number.  So rows that were rebuilt for such hits,
by this service or others with the same score column, sort by score to the order of their hits: the
highest score comes first, in the total order of bit patterns, and rows of one score are in the
order of their keys. -/
theorem scores_survive {ι : Type} (s : Service ι) :
    (∀ (hit : Hit) (time : Int64) (key : Key) (stored : Row), hit.score.isNaN = false →
      hit.document.key s.store = .ok key → s.store.read key time = some stored →
      stored.isEmpty = false →
      ∃ r, s.row hit time = .ok (some r) ∧ r.key = key ∧ s.score? r = some hit.score) ∧
    ∀ found : List (Hit × Row),
      (∀ f ∈ found, f.1.score.isNaN = false ∧ Rebuilt s.column f.1 f.2) →
      let ordered := found.mergeSort fun a b => (hitOrder a b).isLE
      s.sortRows true (found.map Prod.snd) = ordered.map Prod.snd ∧ ordered.Perm found ∧
        ordered.Pairwise fun a b => b.1.score.rank < a.1.score.rank ∨
          a.1.score = b.1.score ∧ (compare a.2.key b.2.key).isLE = true := by
  constructor
  · intro hit time key stored hscore hkey hread hlive
    refine ⟨_, row_eq_ok_some_iff.mpr ⟨key, stored, hkey, hread, hlive, rfl⟩,
      (Row.key_withCell ..).trans (Store.key_of_read hread), Row.score?_withCell hscore stored time⟩
  · intro found hfound ordered
    refine ⟨?_, List.mergeSort_perm _ _, ?_⟩
    · refine (List.map_mergeSort fun a ha b hb => ?_).symm
      obtain ⟨hascore, hrebuilt⟩ := hfound a ha
      obtain ⟨hbscore, hrebuilt'⟩ := hfound b hb
      exact congrArg Ordering.isLE
        (scoreOrder_eq_hitOrder hrebuilt hrebuilt' hascore hbscore).symm
    · have hsorted : ordered.Pairwise fun a b => (hitOrder a b).isLE = true :=
        List.pairwise_mergeSort (fun _ _ _ => TransCmp.isLE_trans)
          (Sorting.isLE_or_isLE hitOrder) found
      exact hsorted.imp isLE_hitOrder_iff.mp

/-- A negative zero is carried as it is.  The least positive number comes before it, and negative
infinity after it; two rows of one score are in the order of their keys. -/
theorem scores_survive_of_limits :
    let s := sample.run sampleCalls
    let hit (bytes : Bytes) (score : Single) : Hit := ⟨⟨[(s.store.place bytes).toField]⟩, score⟩
    let row (bytes : Bytes) (n : Int32) (score : Single) : Row := .ofCells (s.store.place bytes)
      [⟨"n", some (.int n), 10⟩, ⟨"score", some (.text score.toText), 10⟩]
    let least : Single := Binary.saturated false 1
    let zero : Single := Binary.zero true
    let bottom : Single := Binary.infinite true
    (∃ r, s.row (hit [3] zero) 10 = .ok (some r) ∧ r.key = s.store.place [3] ∧
        s.score? r = some zero) ∧
      s.row (hit [2] least) 10 = .ok (some (row [2] 8 least)) ∧
      s.sortRows true [row [3] 9 bottom, row [3] 9 zero, row [2] 8 least, row [] 7 least] =
        [row [] 7 least, row [2] 8 least, row [3] 9 zero, row [3] 9 bottom] := by
  intro s hit row least zero bottom
  obtain ⟨hrows, hsort⟩ := scores_survive s
  let found : List (Hit × Row) := [(hit [3] bottom, row [3] 9 bottom),
    (hit [3] zero, row [3] 9 zero), (hit [2] least, row [2] 8 least),
    (hit [] least, row [] 7 least)]
  have hrebuilt : ∀ f ∈ found, f.1.score.isNaN = false ∧ s.row f.1 10 = .ok (some f.2) := by
    decide +kernel
  obtain ⟨hsorted, -⟩ := hsort found fun f hf =>
    ⟨(hrebuilt f hf).1, _, s, 10, rfl, (hrebuilt f hf).2⟩
  refine ⟨?_, by decide +kernel, ?_⟩
  · exact hrows (hit [3] zero) 10 _ _ (by decide) (Document.key_of_values rfl _) rfl (by decide)
  · have horder : (found.mergeSort fun a b => (hitOrder a b).isLE) = found.reverse := by
      have hreverse : found.reverse.Pairwise fun a b => (hitOrder a b).isLE = true := by
        decide +kernel
      rw [Sorting.mergeSort_eq_of_perm (fun _ _ _ => TransCmp.isLE_trans)
        (Sorting.isLE_or_isLE hitOrder) found.reverse_perm.symm (by decide +kernel),
        List.mergeSort_of_pairwise hreverse]
    exact hsorted.trans (congrArg (List.map Prod.snd) horder)

end Service

end RowIndex
