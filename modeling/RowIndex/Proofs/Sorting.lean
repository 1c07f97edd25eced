import Mathlib.Data.List.Basic

/-!
# Proofs/Sorting — a stable sort keeps what is selected in its order

A list in order is cut by any property that what comes later does not regain
(`append_filter_of_pairwise`).  Sorting puts an element right behind those that come strictly before
it (`mergeSort_cons_eq`), so selecting before sorting and after it is the same, ties included
(`filter_mergeSort`).  Where only equal elements tie, the order in which they came does not matter
(`mergeSort_eq_of_perm`).  It is enough that the order is one on the elements of the list: they come
out in order (`pairwise_mergeSort_of_mem`), and those that tie keep their places
(`filter_mergeSort_of_tie`).
-/

namespace RowIndex.Sorting

variable {α : Type}

/-- **A list in order is cut in two by a property that is lost once and for all.** -/
theorem append_filter_of_pairwise {q : α → Bool} {l : List α}
    (h : l.Pairwise fun a b => q b = true → q a = true) :
    l.filter q ++ l.filter (fun a => !q a) = l := by
  induction l with
  | nil => rfl
  | cons a l ih =>
    obtain ⟨ha, hl⟩ := List.pairwise_cons.mp h
    cases hq : q a with
    | true => simpa [hq] using ih hl
    | false =>
      have hnone : ∀ b ∈ l, q b = false := by
        intro b hb
        exact Bool.eq_false_iff.mpr fun hqb => Bool.eq_false_iff.mp hq (ha b hb hqb)
      have hnil : l.filter q = [] := List.filter_eq_nil_iff.mpr fun b hb => by simp [hnone b hb]
      have hself : l.filter (fun b => !q b) = l :=
        List.filter_eq_self.mpr fun b hb => by simp [hnone b hb]
      simp [hq, hnil, hself]

/-- Of two elements in an order, one is not after the other. -/
theorem isLE_or_isLE (cmp : α → α → Ordering) [Std.OrientedCmp cmp] (a b : α) :
    ((cmp a b).isLE || (cmp b a).isLE) = true := by
  have hswap : cmp b a = (cmp a b).swap := Std.OrientedCmp.eq_swap
  rw [hswap]
  cases cmp a b <;> rfl

section Members

variable {le : α → α → Bool} {l : List α}
  (trans : ∀ a ∈ l, ∀ b ∈ l, ∀ c ∈ l, le a b = true → le b c = true → le a c = true)
  (total : ∀ a ∈ l, ∀ b ∈ l, (le a b || le b a) = true)

theorem map_val_mergeSort_attach (l : List α) :
    (l.attach.mergeSort fun a b => le a.1 b.1).map Subtype.val = l.mergeSort le := by
  rw [List.map_mergeSort (s := le) fun _ _ _ _ => rfl, List.attach_map_subtype_val]

include trans total

/-- Sorting puts in order what an order relates, whatever it does elsewhere. -/
theorem pairwise_mergeSort_of_mem : (l.mergeSort le).Pairwise fun a b => le a b = true := by
  have hsorted := List.pairwise_mergeSort (fun a b c : { a // a ∈ l } =>
    trans a.1 a.2 b.1 b.2 c.1 c.2) (fun a b => total a.1 a.2 b.1 b.2) l.attach
  rw [← map_val_mergeSort_attach]
  exact List.pairwise_map.mpr hsorted

/-- **Sorting keeps what is in order already**, wherever it stands in the list. -/
theorem sublist_mergeSort_of_mem {kept : List α}
    (hordered : kept.Pairwise fun a b => le a b = true) (hkept : kept.Sublist l) :
    kept.Sublist (l.mergeSort le) := by
  rw [← List.attach_map_subtype_val l] at hkept
  obtain ⟨members, hmembers, rfl⟩ := List.sublist_map_iff.mp hkept
  have hsublist := List.sublist_mergeSort (fun a b c : { a // a ∈ l } =>
    trans a.1 a.2 b.1 b.2 c.1 c.2) (fun a b => total a.1 a.2 b.1 b.2)
    (List.pairwise_map.mp hordered) hmembers
  rw [← map_val_mergeSort_attach]
  exact hsublist.map Subtype.val

/-- **Sorting keeps the places of elements that tie.** -/
theorem filter_mergeSort_of_tie {keep : α → Bool}
    (htie : ∀ a ∈ l, ∀ b ∈ l, keep a = true → keep b = true → le a b = true) :
    (l.mergeSort le).filter keep = l.filter keep := by
  have hordered : (l.filter keep).Pairwise fun a b => le a b = true := by
    refine List.pairwise_of_forall_mem_list fun a ha b hb => ?_
    obtain ⟨ha, hkeep⟩ := List.mem_filter.mp ha
    obtain ⟨hb, hkeep'⟩ := List.mem_filter.mp hb
    exact htie a ha b hb hkeep hkeep'
  have hsublist := (sublist_mergeSort_of_mem trans total hordered List.filter_sublist).filter keep
  rw [List.filter_filter] at hsublist
  simp only [Bool.and_self] at hsublist
  have hlength := ((List.mergeSort_perm l le).filter keep).length_eq
  exact (hsublist.eq_of_length hlength.symm).symm

end Members

section MergeSort

variable {le : α → α → Bool} (trans : ∀ a b c, le a b → le b c → le a c)
  (total : ∀ a b, le a b || le b a)

include trans total

/-- What comes strictly before an element stands before the rest of a sorted list. -/
theorem mergeSort_eq_append (a : α) (l : List α) :
    l.mergeSort le =
      (l.mergeSort le).filter (fun b => !le a b) ++ (l.mergeSort le).filter (le a) := by
  have hcut := append_filter_of_pairwise (q := fun b => !le a b) (l := l.mergeSort le) ?_
  · simpa using hcut.symm
  · refine (List.pairwise_mergeSort trans total l).imp fun {b c} hbc hc => ?_
    rw [Bool.not_eq_true'] at hc ⊢
    exact Bool.eq_false_iff.mpr fun hab => Bool.eq_false_iff.mp hc (trans a b c hab hbc)

/-- **A stable sort puts an element right behind those that come strictly before it.** -/
theorem mergeSort_cons_eq (a : α) (l : List α) :
    (a :: l).mergeSort le =
      (l.mergeSort le).filter (fun b => !le a b) ++ a :: (l.mergeSort le).filter (le a) := by
  obtain ⟨before, after, hcons, hl, hbefore⟩ := List.mergeSort_cons trans total a l
  have hordered := List.pairwise_mergeSort trans total (a :: l)
  rw [hcons] at hordered
  have hafter : ∀ b ∈ after, le a b = true := by
    have htail := (List.pairwise_append.mp hordered).2.1
    exact (List.pairwise_cons.mp htail).1
  rw [hcons, hl, List.filter_append, List.filter_append, List.filter_eq_self.mpr hbefore,
    List.filter_eq_self.mpr hafter, List.filter_eq_nil_iff.mpr fun b hb => by simp [hafter b hb],
    List.filter_eq_nil_iff.mpr fun b hb => by simpa using hbefore b hb, List.append_nil,
    List.nil_append]

/-- **Selecting and sorting can be exchanged**, ties included. -/
theorem filter_mergeSort (keep : α → Bool) (l : List α) :
    (l.mergeSort le).filter keep = (l.filter keep).mergeSort le := by
  induction l with
  | nil => simp
  | cons a l ih =>
    have hbefore := List.filter_comm keep (fun b => !le a b) (l.mergeSort le)
    have hafter := List.filter_comm keep (le a) (l.mergeSort le)
    rw [mergeSort_cons_eq trans total, List.filter_append, List.filter_cons, hbefore, ih]
    by_cases ha : keep a = true
    · rw [if_pos ha, hafter, ih, List.filter_cons_of_pos ha, mergeSort_cons_eq trans total]
    · rw [if_neg ha, hafter, ih, List.filter_cons_of_neg ha]
      exact (mergeSort_eq_append trans total a _).symm

/-- **Where elements that tie are the same, all orders of a list sort to one list.** -/
theorem mergeSort_eq_of_perm {l l' : List α} (h : l.Perm l')
    (eq_of_tie : ∀ a ∈ l, ∀ b ∈ l, le a b → le b a → a = b) : l.mergeSort le = l'.mergeSort le := by
  have hperm : (l.mergeSort le).Perm (l'.mergeSort le) :=
    (List.mergeSort_perm l le).trans (h.trans (List.mergeSort_perm l' le).symm)
  refine hperm.eq_of_pairwise (fun a b ha hb => ?_) (List.pairwise_mergeSort trans total l)
    (List.pairwise_mergeSort trans total l')
  exact eq_of_tie a (List.mem_mergeSort.mp ha) b (h.mem_iff.mpr (List.mem_mergeSort.mp hb))

end MergeSort

end RowIndex.Sorting
