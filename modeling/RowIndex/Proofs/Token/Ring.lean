import RowIndex.Proofs.Sorting
import RowIndex.Proofs.Token.Order
import RowIndex.TokenRange

/-!
# Proofs/Token/Ring — the slices of the token ring

    minimum ──( t₁ ]──( t₂ ]── … ──( tₙ ]── minimum

Ascending tokens cut the ring into slices, each open below and closed above; the sentinel stands for
both ends.  Every token lies in exactly one slice (`countP_slices`), and a list in token order is
the list of its slices, one after another (`flatMap_slices`).
-/

namespace RowIndex

open Std

/-! ## Tokens above a bound -/

namespace Token

/-- Whether a token lies above a bound; every token lies above a sentinel. -/
def isAbove (t low : Token) : Bool := low.isMinimum || (compare t low).isGT

variable {s t low : Token}

theorem isAbove_of_isMinimum (h : low.isMinimum = true) : t.isAbove low = true := by
  rw [isAbove, h, Bool.true_or]

theorem isAbove_iff_of_proper (h : low.isMinimum = false) :
    t.isAbove low = true ↔ compare low t = .lt := by
  rw [isAbove, h, Bool.false_or, Ordering.isGT_iff_eq_gt, OrientedCmp.gt_iff_lt]

/-- What lies above a token lies above all that the token lies above. -/
theorem isAbove_trans (hs : s.isMinimum = false) (hlow : s.isAbove low = true)
    (ht : t.isAbove s = true) : t.isAbove low = true := by
  cases hmin : low.isMinimum with
  | true => exact isAbove_of_isMinimum hmin
  | false =>
    rw [isAbove_iff_of_proper hmin] at hlow ⊢
    exact TransCmp.lt_trans hlow ((isAbove_iff_of_proper hs).mp ht)

/-- What is not below a token that lies above a bound lies above it too. -/
theorem isAbove_of_isLE (hlow : low.isMinimum = false) (hs : s.isAbove low = true)
    (h : (compare s t).isLE = true) : t.isAbove low = true :=
  (isAbove_iff_of_proper hlow).mpr
    (TransCmp.lt_of_lt_of_isLE ((isAbove_iff_of_proper hlow).mp hs) h)

end Token

theorem Partitioner.isMinimum_minimum (p : Partitioner) : p.minimum.isMinimum = true := by
  cases p <;> rfl

/-! ## Slices -/

namespace TokenRange

/-- A slice holds what lies above its lower bound but not above its upper one. -/
theorem contains_leftOpen (low high t : Token) :
    (leftOpen low high).contains t = (t.isAbove low && (high.isMinimum || !t.isAbove high)) := by
  have hproper (bound : Token) :
      proper (some bound) = if bound.isMinimum then none else some bound := by
    cases h : bound.isMinimum <;> simp [proper, h]
  have hle : (compare t high).isLE = !(compare t high).isGT := by cases compare t high <;> rfl
  simp only [contains, leftOpen, hproper, Token.isAbove]
  cases low.isMinimum <;> cases high.isMinimum <;>
    simp only [if_true, if_false, Bool.false_eq_true, Bool.true_or, Bool.false_or, Bool.true_and,
      Bool.and_true, hle]

/-- The slice above a bound, up to the end of the ring. -/
theorem contains_leftOpen_minimum (low : Token) (p : Partitioner) (t : Token) :
    (leftOpen low p.minimum).contains t = t.isAbove low := by
  rw [contains_leftOpen, p.isMinimum_minimum, Bool.true_or, Bool.and_true]

/-- The slices that a list of tokens cuts out between two bounds. -/
def slicesBetween (low high : Token) : List Token → List TokenRange
  | [] => [leftOpen low high]
  | t :: rest => leftOpen low t :: slicesBetween t high rest

/-- Ascending tokens above a bound, none of them a sentinel. -/
structure Cuts (low : Token) (cuts : List Token) : Prop where
  above : ∀ t ∈ cuts, t.isAbove low = true
  ascending : cuts.Pairwise fun a b => compare a b = .lt
  proper : ∀ t ∈ cuts, t.isMinimum = false

variable {low high c t : Token} {cuts : List Token}

namespace Cuts

theorem tail (h : Cuts low (c :: cuts)) : Cuts c cuts where
  above t ht := by
    rw [Token.isAbove_iff_of_proper (h.proper c List.mem_cons_self)]
    exact (List.pairwise_cons.mp h.ascending).1 t ht
  ascending := (List.pairwise_cons.mp h.ascending).2
  proper t ht := h.proper t (List.mem_cons_of_mem _ ht)

/-- What lies above the first cut lies above the bound. -/
theorem isAbove_of_head (h : Cuts low (c :: cuts)) (ht : t.isAbove c = true) :
    t.isAbove low = true :=
  Token.isAbove_trans (h.proper c List.mem_cons_self) (h.above c List.mem_cons_self) ht

/-- The first slice ends at the first cut. -/
theorem contains_first (h : Cuts low (c :: cuts)) (t : Token) :
    (leftOpen low c).contains t = (t.isAbove low && !t.isAbove c) := by
  rw [contains_leftOpen, h.proper c List.mem_cons_self, Bool.false_or]

end Cuts

/-- The bounds of a slice are the outer bounds or cuts. -/
theorem mem_slicesBetween {r : TokenRange} (h : r ∈ slicesBetween low high cuts) :
    ∃ a ∈ low :: cuts, ∃ b ∈ high :: cuts, r = leftOpen a b := by
  induction cuts generalizing low with
  | nil => exact ⟨low, List.mem_cons_self, high, List.mem_cons_self, List.mem_singleton.mp h⟩
  | cons c cuts ih =>
    rcases List.mem_cons.mp h with rfl | h
    · exact ⟨low, List.mem_cons_self, c, List.mem_cons_of_mem _ List.mem_cons_self, rfl⟩
    · obtain ⟨a, ha, b, hb, rfl⟩ := ih h
      refine ⟨a, List.mem_cons_of_mem _ ha, b, ?_, rfl⟩
      rcases List.mem_cons.mp hb with rfl | hb
      · exact List.mem_cons_self
      · exact List.mem_cons_of_mem _ (List.mem_cons_of_mem _ hb)

/-- **What lies above a bound lies in exactly one slice**, and nothing else in any. -/
theorem countP_slicesBetween (p : Partitioner) (h : Cuts low cuts) (t : Token) :
    (slicesBetween low p.minimum cuts).countP (·.contains t) =
      if t.isAbove low then 1 else 0 := by
  induction cuts generalizing low with
  | nil => simp [slicesBetween, contains_leftOpen_minimum]
  | cons c cuts ih =>
    rw [slicesBetween, List.countP_cons, ih h.tail, h.contains_first]
    cases hc : t.isAbove c with
    | true => simp [h.isAbove_of_head hc]
    | false => simp

section Lists

variable {α : Type} {token : α → Token} {l : List α}
  (hl : l.Pairwise fun a b => (compare (token a) (token b)).isLE = true)

include hl

/-- A list in token order passes its first cut once and for all. -/
theorem Cuts.append_filter (h : Cuts low (c :: cuts)) :
    (l.filter fun a => (leftOpen low c).contains (token a)) ++
        (l.filter fun a => (token a).isAbove c) =
      l.filter fun a => (token a).isAbove low := by
  have hpassed : (l.filter fun a => (token a).isAbove low).Pairwise fun a b =>
      (!(token b).isAbove c) = true → (!(token a).isAbove c) = true := by
    refine (hl.filter _).imp fun {a b} hle hb => ?_
    rw [Bool.not_eq_true'] at hb ⊢
    refine Bool.eq_false_iff.mpr fun ha => Bool.eq_false_iff.mp hb ?_
    exact Token.isAbove_of_isLE (h.proper c List.mem_cons_self) ha hle
  have hcut := Sorting.append_filter_of_pairwise hpassed
  rw [List.filter_filter, List.filter_filter] at hcut
  rw [← hcut]
  congr 1
  · refine List.filter_congr fun a _ => ?_
    rw [h.contains_first, Bool.and_comm]
  · refine List.filter_congr fun a _ => ?_
    cases ha : (token a).isAbove c with
    | true => rw [h.isAbove_of_head ha]; rfl
    | false => rfl

/-- **A list in token order is the list of its slices**, one after another. -/
theorem flatMap_slicesBetween (p : Partitioner) (h : Cuts low cuts) :
    (slicesBetween low p.minimum cuts).flatMap
        (fun r => l.filter fun a => r.contains (token a)) =
      l.filter fun a => (token a).isAbove low := by
  induction cuts generalizing low with
  | nil => simp [slicesBetween, contains_leftOpen_minimum]
  | cons c cuts ih => rw [slicesBetween, List.flatMap_cons, ih h.tail, h.append_filter hl]

end Lists

end TokenRange

/-! ## The ring -/

namespace Partitioner

/-- The slices into which tokens cut the ring of a partitioner. -/
def slices (p : Partitioner) (cuts : List Token) : List TokenRange :=
  TokenRange.slicesBetween p.minimum p.minimum cuts

variable {p : Partitioner} {cuts : List Token}

/-- Ascending tokens that are no sentinels cut the ring. -/
theorem cuts_minimum (hascending : cuts.Pairwise fun a b => compare a b = .lt)
    (hproper : ∀ t ∈ cuts, t.isMinimum = false) : TokenRange.Cuts p.minimum cuts where
  above _ _ := Token.isAbove_of_isMinimum p.isMinimum_minimum
  ascending := hascending
  proper := hproper

/-- **Every token lies in exactly one slice of the ring.** -/
theorem countP_slices (h : TokenRange.Cuts p.minimum cuts) (t : Token) :
    (p.slices cuts).countP (·.contains t) = 1 := by
  rw [slices, TokenRange.countP_slicesBetween p h,
    if_pos (Token.isAbove_of_isMinimum p.isMinimum_minimum)]

/-- **A list in token order is what its slices of the ring hold**, one after another. -/
theorem flatMap_slices {α : Type} {token : α → Token} (h : TokenRange.Cuts p.minimum cuts)
    {l : List α} (hl : l.Pairwise fun a b => (compare (token a) (token b)).isLE = true) :
    (p.slices cuts).flatMap (fun r => l.filter fun a => r.contains (token a)) = l := by
  rw [slices, TokenRange.flatMap_slicesBetween hl p h]
  exact List.filter_eq_self.mpr fun a _ => Token.isAbove_of_isMinimum p.isMinimum_minimum

end Partitioner

end RowIndex
