import RowIndex.Text.Analysis

/-!
# Proofs/Text/Analyzers — where the two analyzers take a text apart alike

Both analyzers find the same words and differ in two leaves.  A word of exactly 40 bytes is kept by
one of them only, so the numbers of tokens differ (`filter_le_eq_filter_lt_iff`); a capital sigma
that ends a word is lower-cased to `ς` by one and to `σ` by the other
(`lowerFrom_eq_flatMap_iff`).  On texts without either they agree, and on no others
(`analyze_eq_analyzeIndexed_iff`).
-/

namespace RowIndex.Text

/-! ## Sigma -/

/-- Whether a capital sigma ends the word, which may go on with characters that are no letters. -/
def HasFinalSigma (word : List Char) : Prop :=
  ∃ before after, word = before ++ 'Σ' :: after ∧ endsWord before.reverse after = true

theorem lowerChar_sigma : lowerChar 'Σ' = ['σ'] := by decide +kernel

/-- **A word is lower-cased character by character exactly if no sigma ends it**, given what stands
before the word. -/
theorem lowerFrom_eq_flatMap_iff {before word : List Char} :
    lowerFrom before word = word.flatMap lowerChar ↔
      ∀ front back, word = front ++ 'Σ' :: back →
        endsWord (front.reverse ++ before) back = false := by
  induction word generalizing before with
  | nil => simp [lowerFrom]
  | cons c word ih =>
    have hsplit : (∀ front back, c :: word = front ++ 'Σ' :: back →
          endsWord (front.reverse ++ before) back = false) ↔
        (c = 'Σ' → endsWord before word = false) ∧ ∀ front back, word = front ++ 'Σ' :: back →
          endsWord (front.reverse ++ c :: before) back = false := by
      constructor
      · refine fun h => ⟨?_, fun front back hword => ?_⟩
        · rintro rfl
          exact h [] word rfl
        · have := h (c :: front) back (by rw [hword]; rfl)
          rwa [List.reverse_cons, List.append_assoc] at this
      · rintro ⟨hhead, htail⟩ (_ | ⟨d, front⟩) back hword
        · obtain ⟨rfl, rfl⟩ := List.cons.inj hword
          exact hhead rfl
        · obtain ⟨rfl, heq⟩ := List.cons.inj hword
          rw [List.reverse_cons, List.append_assoc]
          exact htail front back heq
    rw [hsplit, ← ih, lowerFrom, List.flatMap_cons]
    by_cases hc : c = 'Σ'
    · subst hc
      rw [if_pos rfl, lowerChar_sigma]
      cases endsWord before word <;> simp
    · simp [hc]

theorem lowerFrom_nil_eq_iff {word : List Char} :
    lowerFrom [] word = word.flatMap lowerChar ↔ ¬HasFinalSigma word := by
  rw [lowerFrom_eq_flatMap_iff]
  simp only [HasFinalSigma, List.append_nil, not_exists, not_and, Bool.not_eq_true]

/-! ## Length -/

/-- As many words keep a limit as stay below it only if none is as long as the limit. -/
theorem filter_le_eq_filter_lt_iff {words : List (List Char)} {limit : Nat} :
    words.filter (byteLength · ≤ limit) = words.filter (byteLength · < limit) ↔
      ∀ word ∈ words, byteLength word ≠ limit := by
  constructor
  · intro h word hword hlength
    have hmem : word ∈ words.filter (byteLength · ≤ limit) :=
      List.mem_filter.mpr ⟨hword, decide_eq_true (Nat.le_of_eq hlength)⟩
    rw [h, List.mem_filter, decide_eq_true_eq] at hmem
    exact Nat.ne_of_lt hmem.2 hlength
  · intro h
    refine List.filter_congr fun word hword => ?_
    rw [decide_eq_decide]
    exact ⟨fun hle => Nat.lt_of_le_of_ne hle (h word hword), Nat.le_of_lt⟩

theorem filter_eq_of_length_eq {words : List (List Char)} {limit : Nat}
    (h : (words.filter (byteLength · ≤ limit)).length =
      (words.filter (byteLength · < limit)).length) :
    words.filter (byteLength · ≤ limit) = words.filter (byteLength · < limit) := by
  have hsublist : (words.filter (byteLength · < limit)).Sublist
      (words.filter (byteLength · ≤ limit)) := by
    have hfilter : words.filter (byteLength · < limit) =
        (words.filter (byteLength · ≤ limit)).filter (byteLength · < limit) := by
      rw [List.filter_filter]
      refine List.filter_congr fun word _ => ?_
      rw [← Bool.decide_and, decide_eq_decide]
      exact ⟨fun hlt => ⟨hlt, Nat.le_of_lt hlt⟩, And.left⟩
    rw [hfilter]
    exact List.filter_sublist
  exact (hsublist.eq_of_length h.symm).symm

/-! ## Analyzers -/

/-- Whether no word of a text has exactly the greatest length, and no shorter one ends in a capital
sigma. -/
def Unambiguous (text : String) : Prop :=
  ∀ word ∈ words text.toList, byteLength word ≠ maxTokenLength ∧
    (byteLength word < maxTokenLength → ¬HasFinalSigma word)

/-- **The analyzers agree on unambiguous texts, and on no others.** -/
theorem analyze_eq_analyzeIndexed_iff {text : String} :
    analyze text = analyzeIndexed text ↔ Unambiguous text := by
  have hfilters : analyze text = analyzeIndexed text ↔
      (words text.toList).filter (byteLength · ≤ maxTokenLength) =
          (words text.toList).filter (byteLength · < maxTokenLength) ∧
        ∀ word ∈ (words text.toList).filter (byteLength · < maxTokenLength),
          lowerFrom [] word = word.flatMap lowerChar := by
    rw [analyze, analyzeIndexed]
    constructor
    · intro h
      have hlength := congrArg List.length h
      rw [List.length_map, List.length_map] at hlength
      have heq := filter_eq_of_length_eq hlength
      rw [heq, List.map_inj_left] at h
      exact ⟨heq, fun word hword => String.ofList_injective (h word hword)⟩
    · rintro ⟨heq, hlower⟩
      rw [heq]
      exact List.map_congr_left fun word hword => congrArg String.ofList (hlower word hword)
  rw [hfilters, filter_le_eq_filter_lt_iff, Unambiguous]
  simp only [List.mem_filter, decide_eq_true_eq, lowerFrom_nil_eq_iff, forall_and, and_imp]

end RowIndex.Text
