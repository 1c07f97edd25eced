import Mathlib.Data.List.Nodup
import RowIndex.Proofs.Field.ValueOrder
import RowIndex.Proofs.Sorting
import RowIndex.Proofs.Token.Order
import RowIndex.Service.RowOrder

/-!
# Proofs/Row/MergeOrder — the orders in which rows are merged

    score column ──text?──numeral?──▸ score or none, the highest first and none last
                                                │ ties
    key ──────────────────────────▸ token, then bytes

The score of a row may be absent, no text, no numeral, or a numeral that stands for no number; each
row still has its place in the order of optional bit patterns (`scoreOrder_eq`), and ties are
decided by the key.  So both orders are total preorders in which only rows of one key tie
(`isMergeOrder_tokenOrder`, `isMergeOrder_scoreOrder`), and rows of different keys sort to one list
however they were gathered (`IsMergeOrder.sortBy_eq_of_perm`).
-/

namespace RowIndex.Row

open Std

/-- An order in which rows can be merged: a total preorder in which only rows of one key tie. -/
structure IsMergeOrder (order : Row → Row → Ordering) : Prop where
  refl : ∀ a, order a a = .eq
  swap : ∀ a b, order b a = (order a b).swap
  total : ∀ a b, (order a b).isLE = true ∨ (order b a).isLE = true
  trans : ∀ a b c, (order a b).isLE = true → (order b c).isLE = true → (order a c).isLE = true
  key_eq : ∀ a b, order a b = .eq → a.key = b.key

theorem IsMergeOrder.of_transCmp {order : Row → Row → Ordering} [TransCmp order]
    (h : ∀ a b, order a b = .eq → a.key = b.key) : IsMergeOrder order where
  refl a := ReflCmp.compare_self
  swap a b := OrientedCmp.eq_swap
  total a b := by simpa using Sorting.isLE_or_isLE order a b
  trans a b c := TransCmp.isLE_trans
  key_eq := h

/-! ## The two orders -/

instance : TransCmp tokenOrder := inferInstanceAs (TransCmp (compareOn key))

/-- **Rows can be merged by token.** -/
theorem isMergeOrder_tokenOrder : IsMergeOrder tokenOrder :=
  .of_transCmp fun _ _ h => LawfulEqOrd.eq_of_compare h

/-- By score, rows are in the order of what their column reads as, turned around: the highest score
comes first, and a row without one, being least, last. -/
theorem scoreOrder_eq (column : String) (a b : Row) :
    scoreOrder column a b =
      (compare (b.score? column) (a.score? column)).then (compare a.key b.key) := by
  rw [scoreOrder]
  cases a.score? column <;> cases b.score? column <;> rfl

instance (column : String) : TransCmp (scoreOrder column) := by
  have horder : scoreOrder column =
      compareLex (fun a b => compareOn (score? · column) b a) (compareOn key) :=
    funext fun a => funext fun b => scoreOrder_eq column a b
  rw [horder]
  infer_instance

/-- **Rows can be merged by the score in any column**, whether it can be read or not. -/
theorem isMergeOrder_scoreOrder (column : String) : IsMergeOrder (scoreOrder column) := by
  refine .of_transCmp fun a b h => ?_
  rw [scoreOrder_eq] at h
  exact LawfulEqOrd.eq_of_compare (Ordering.then_eq_eq.mp h).2

/-! ## Sorting -/

/-- Rows in an order; rows that tie keep their places. -/
def sortBy (order : Row → Row → Ordering) (rows : List Row) : List Row :=
  rows.mergeSort fun a b => (order a b).isLE

/-- **Rows of different keys sort to one list**, in whichever order they were gathered. -/
theorem IsMergeOrder.sortBy_eq_of_perm {order : Row → Row → Ordering} (h : IsMergeOrder order)
    {rows rows' : List Row} (hperm : rows.Perm rows') (hkeys : (rows.map key).Nodup) :
    sortBy order rows = sortBy order rows' := by
  have htotal (a b : Row) : ((order a b).isLE || (order b a).isLE) = true := by
    simpa using h.total a b
  refine Sorting.mergeSort_eq_of_perm h.trans htotal hperm fun a ha b hb hab hba => ?_
  have htie : order a b = .eq := by
    rw [h.swap a b] at hba
    cases horder : order a b <;> simp_all
  exact List.inj_on_of_nodup_map hkeys ha hb (h.key_eq a b htie)

end RowIndex.Row
