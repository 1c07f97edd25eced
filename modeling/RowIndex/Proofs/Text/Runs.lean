import RowIndex.Text.Analysis

/-!
# Proofs/Text/Runs — the words of a text are its maximal alphanumeric runs

    text ──split at separators──▸ pieces ──not empty──▸ words ──short──▸ ──lower-cased──▸ tokens

A text that is cut at a separator has the words of the one side and then those of the other
(`words_append_cons`); a text without separators is one word (`words_of_alphanumeric`).  The same is
true of maximal runs and the places where they stand (`ListsRuns.append`,
`listsRuns_of_alphanumeric`).  So, by induction on the separators, the words of a text are its
maximal runs in order (`exists_runs`).
-/

namespace RowIndex.Text

/-! ## Cutting a text at a separator -/

section Split

variable {inClass : Char → Bool}

theorem split_ne_nil (text : List Char) : split inClass text ≠ [] := by
  cases text with
  | nil => exact List.cons_ne_nil _ _
  | cons c rest =>
    rw [split]
    split
    · split <;> exact List.cons_ne_nil _ _
    · exact List.cons_ne_nil _ _

/-- The pieces on both sides of an element outside the class are those of the two parts. -/
theorem split_append_cons {c : Char} (hc : inClass c = false) (s t : List Char) :
    split inClass (s ++ c :: t) = split inClass s ++ split inClass t := by
  induction s with
  | nil => simp [split, hc]
  | cons d s ih =>
    obtain ⟨piece, pieces, hpieces⟩ : ∃ piece pieces, split inClass s = piece :: pieces :=
      List.exists_cons_of_ne_nil (split_ne_nil s)
    rw [List.cons_append, split, split, ih, hpieces]
    split <;> rfl

theorem split_of_forall {piece : List Char} (h : ∀ c ∈ piece, inClass c = true) :
    split inClass piece = [piece] := by
  induction piece with
  | nil => rfl
  | cons c piece ih =>
    obtain ⟨hc, hpiece⟩ := List.forall_mem_cons.mp h
    rw [split, if_pos hc, ih hpiece]

end Split

/-- **Words do not cross a separator.** -/
theorem words_append_cons {c : Char} (hc : isAlphanumeric c = false) (s t : List Char) :
    words (s ++ c :: t) = words s ++ words t := by
  rw [words, split_append_cons hc, List.filter_append]
  rfl

/-- A text without separators is one word. -/
theorem words_of_alphanumeric {word : List Char} (h : ∀ c ∈ word, isAlphanumeric c = true) :
    words word = if word = [] then [] else [word] := by
  rw [words, split_of_forall h]
  cases word <;> rfl

/-- Several separators in a row are as good as one. -/
theorem words_append_gap {gap : List Char} (hne : gap ≠ [])
    (hgap : ∀ c ∈ gap, isAlphanumeric c = false) (s t : List Char) :
    words (s ++ gap ++ t) = words s ++ words t := by
  induction gap generalizing s with
  | nil => contradiction
  | cons c gap ih =>
    obtain ⟨hc, hrest⟩ := List.forall_mem_cons.mp hgap
    have hcut : s ++ c :: gap ++ t = s ++ c :: ([] ++ gap ++ t) := by simp
    rw [hcut, words_append_cons hc]
    by_cases hnil : gap = []
    · rw [hnil]
      rfl
    · rw [ih hnil hrest]
      rfl

/-- A text is made of words by putting separators between them. -/
@[elab_as_elim]
theorem separators_induction {P : List Char → Prop}
    (word : ∀ w, (∀ c ∈ w, isAlphanumeric c = true) → P w)
    (cut : ∀ w c t, (∀ c ∈ w, isAlphanumeric c = true) → isAlphanumeric c = false → P t →
      P (w ++ c :: t)) (text : List Char) : P text := by
  -- The word that the text goes on with is carried along.
  have hafter (w : List Char) (hw : ∀ c ∈ w, isAlphanumeric c = true) : P (w ++ text) := by
    induction text generalizing w with
    | nil => exact (List.append_nil w).symm ▸ word w hw
    | cons c text ih =>
      cases hc : isAlphanumeric c with
      | true =>
        rw [List.append_cons]
        refine ih (w ++ [c]) fun e he => ?_
        rcases List.mem_append.mp he with he | he
        · exact hw e he
        · exact List.mem_singleton.mp he ▸ hc
      | false => exact cut w c text hw hc (ih [] fun e he => (List.not_mem_nil he).elim)
  exact hafter [] fun e he => (List.not_mem_nil he).elim

/-! ## Maximal runs -/

/-- A run of alphanumeric characters that cannot be extended: none stands right before it, and none
right behind it. -/
structure IsRun (before run after : List Char) : Prop where
  nonempty : run ≠ []
  alphanumeric : ∀ c ∈ run, isAlphanumeric c = true
  before : ∀ c ∈ before.getLast?, isAlphanumeric c = false
  after : ∀ c ∈ after.head?, isAlphanumeric c = false

/-- Whether a text has a maximal run at a place, counted in characters. -/
def RunAt (text : List Char) (start : Nat) (run : List Char) : Prop :=
  ∃ before after, text = before ++ run ++ after ∧ before.length = start ∧ IsRun before run after

/-- A list has all maximal runs of a text with their places, in order. -/
structure ListsRuns (text : List Char) (runs : List (Nat × List Char)) : Prop where
  ascending : (runs.map Prod.fst).Pairwise (· < ·)
  mem_iff : ∀ start run, (start, run) ∈ runs ↔ RunAt text start run

theorem RunAt.start_lt {text run : List Char} {start : Nat} (h : RunAt text start run) :
    start < text.length := by
  obtain ⟨before, after, rfl, rfl, hrun⟩ := h
  have hpos := List.length_pos_iff.mpr hrun.nonempty
  simp only [List.length_append]
  omega

/-- A text without separators is its own only run. -/
theorem runAt_iff_of_alphanumeric {word : List Char} (h : ∀ c ∈ word, isAlphanumeric c = true)
    {start : Nat} {run : List Char} :
    RunAt word start run ↔ start = 0 ∧ run = word ∧ word ≠ [] := by
  constructor
  · rintro ⟨before, after, rfl, rfl, hrun⟩
    have hbefore : before = [] := by
      rcases List.eq_nil_or_concat before with rfl | ⟨front, c, rfl⟩
      · rfl
      · have htrue := h c (by simp)
        rw [hrun.before c (by simp)] at htrue
        contradiction
    have hafter : after = [] := by
      cases after with
      | nil => rfl
      | cons c back =>
        have htrue := h c (by simp)
        rw [hrun.after c rfl] at htrue
        contradiction
    subst hbefore hafter
    simpa using hrun.nonempty
  · rintro ⟨rfl, rfl, hne⟩
    exact ⟨[], [], by simp, rfl, hne, h, by simp, by simp⟩

section Cut

variable {c : Char} (hc : isAlphanumeric c = false)

include hc

/-- What stands behind a separator has no influence on the runs before it. -/
theorem isRun_append_after_iff {before run after t : List Char} :
    IsRun before run (after ++ c :: t) ↔ IsRun before run after := by
  have hhead : (∀ e ∈ (after ++ c :: t).head?, isAlphanumeric e = false) ↔
      ∀ e ∈ after.head?, isAlphanumeric e = false := by
    cases after <;> simp [hc]
  exact ⟨fun h => ⟨h.nonempty, h.alphanumeric, h.before, hhead.mp h.after⟩,
    fun h => ⟨h.nonempty, h.alphanumeric, h.before, hhead.mpr h.after⟩⟩

/-- What stands before a separator has no influence on the runs behind it. -/
theorem isRun_append_before_iff {s before run after : List Char} :
    IsRun (s ++ c :: before) run after ↔ IsRun before run after := by
  have hlast : (∀ e ∈ (s ++ c :: before).getLast?, isAlphanumeric e = false) ↔
      ∀ e ∈ before.getLast?, isAlphanumeric e = false := by
    cases before <;> simp [hc]
  exact ⟨fun h => ⟨h.nonempty, h.alphanumeric, hlast.mp h.before, h.after⟩,
    fun h => ⟨h.nonempty, h.alphanumeric, hlast.mpr h.before, h.after⟩⟩

/-- **A maximal run stands on one side of a separator.** -/
theorem runAt_append_cons_iff {s t : List Char} {start : Nat} {run : List Char} :
    RunAt (s ++ c :: t) start run ↔
      RunAt s start run ∨ ∃ place, start = s.length + 1 + place ∧ RunAt t place run := by
  constructor
  · rintro ⟨before, after, htext, rfl, hrun⟩
    have hnot : c ∉ run := fun hmem => by
      have htrue := hrun.alphanumeric c hmem
      rw [hc] at htrue
      contradiction
    -- The separator is part of what follows the run, or of the run, or of what is before it.
    rcases List.append_eq_append_iff.mp htext with ⟨x, hx, hright⟩ | ⟨x, rfl, rfl⟩
    · rcases List.cons_eq_append_iff.mp hright with ⟨rfl, rfl⟩ | ⟨x, rfl, rfl⟩
      · rw [List.append_nil] at hx
        exact Or.inl ⟨before, [], by rw [List.append_nil, hx], rfl,
          (isRun_append_after_iff (t := t) hc).mp hrun⟩
      · rcases List.append_eq_append_iff.mp hx with ⟨y, -, rfl⟩ | ⟨y, rfl, hy⟩
        · exact (hnot (by simp)).elim
        · rcases List.cons_eq_append_iff.mp hy with ⟨-, rfl⟩ | ⟨y, rfl, rfl⟩
          · exact (hnot List.mem_cons_self).elim
          · exact Or.inr ⟨y.length, by simp; omega, y, after, rfl, rfl,
              (isRun_append_before_iff hc).mp hrun⟩
    · exact Or.inl ⟨before, x, rfl, rfl, (isRun_append_after_iff hc).mp hrun⟩
  · rintro (⟨before, after, rfl, rfl, hrun⟩ | ⟨place, rfl, before, after, rfl, rfl, hrun⟩)
    · exact ⟨before, after ++ c :: t, by simp, rfl, (isRun_append_after_iff hc).mpr hrun⟩
    · exact ⟨s ++ c :: before, after, by simp, by simp; omega,
        (isRun_append_before_iff hc).mpr hrun⟩

end Cut

theorem listsRuns_of_alphanumeric {word : List Char} (h : ∀ c ∈ word, isAlphanumeric c = true) :
    ListsRuns word (if word = [] then [] else [(0, word)]) where
  ascending := by split <;> simp
  mem_iff start run := by
    rw [runAt_iff_of_alphanumeric h]
    split <;> simp [*]

/-- The runs behind a separator stand further back by what is before them. -/
theorem ListsRuns.append {s t : List Char} {runs others : List (Nat × List Char)}
    (hs : ListsRuns s runs) (ht : ListsRuns t others) {c : Char}
    (hc : isAlphanumeric c = false) :
    ListsRuns (s ++ c :: t) (runs ++ others.map fun r => (s.length + 1 + r.1, r.2)) where
  ascending := by
    have hplaces : (others.map fun r => (s.length + 1 + r.1, r.2)).map Prod.fst =
        (others.map Prod.fst).map (s.length + 1 + ·) := by
      rw [List.map_map, List.map_map]
      rfl
    rw [List.map_append, hplaces, List.pairwise_append]
    refine ⟨hs.ascending, ?_, ?_⟩
    · exact List.pairwise_map.mpr (ht.ascending.imp fun h => Nat.add_lt_add_left h _)
    · intro i hi j hj
      obtain ⟨⟨start, run⟩, hrun, rfl⟩ := List.mem_map.mp hi
      obtain ⟨place, -, rfl⟩ := List.mem_map.mp hj
      have hlt : start < s.length := ((hs.mem_iff start run).mp hrun).start_lt
      change start < s.length + 1 + place
      omega
  mem_iff start run := by
    rw [runAt_append_cons_iff hc, List.mem_append, hs.mem_iff, List.mem_map]
    refine or_congr_right ⟨?_, ?_⟩
    · rintro ⟨⟨place, other⟩, hother, heq⟩
      obtain ⟨rfl, rfl⟩ := Prod.mk.inj heq
      exact ⟨place, rfl, (ht.mem_iff place other).mp hother⟩
    · rintro ⟨place, rfl, hrun⟩
      exact ⟨(place, run), (ht.mem_iff place run).mpr hrun, rfl⟩

/-- **The words of a text are its maximal runs, in order.** -/
theorem exists_runs (text : List Char) :
    ∃ runs, ListsRuns text runs ∧ words text = runs.map Prod.snd := by
  induction text using separators_induction with
  | word w hw =>
    refine ⟨_, listsRuns_of_alphanumeric hw, ?_⟩
    rw [words_of_alphanumeric hw]
    split <;> rfl
  | cut w c t hw hc ih =>
    obtain ⟨runs, hruns, hwords⟩ := ih
    refine ⟨_, (listsRuns_of_alphanumeric hw).append hruns hc, ?_⟩
    rw [words_append_cons hc, words_of_alphanumeric hw, hwords, List.map_append, List.map_map]
    split <;> rfl

/-! ## Tokens -/

theorem utf8ByteSize_ofList (text : List Char) :
    (String.ofList text).utf8ByteSize = byteLength text := by
  induction text with
  | nil => rfl
  | cons c text ih =>
    rw [String.ofList_cons, String.utf8ByteSize_append, String.utf8ByteSize_singleton, ih]
    rfl

/-- Tokens are the short words, each lower-cased on its own. -/
theorem analyze_eq (text : String) :
    analyze text =
      (((words text.toList).map String.ofList).filter (·.utf8ByteSize ≤ maxTokenLength)).map
        toLower := by
  have hlower (word : List Char) :
      toLower (String.ofList word) = String.ofList (lowerFrom [] word) := by
    rw [toLower, String.toList_ofList]
  rw [analyze, List.filter_map, List.map_map]
  simp only [Function.comp_def, utf8ByteSize_ofList, hlower]

/-- **Tokens do not cross a separator**, nor several in a row. -/
theorem analyze_append_gap {gap : String} (hne : gap ≠ "")
    (hgap : ∀ c ∈ gap.toList, isAlphanumeric c = false) (s t : String) :
    analyze (s ++ gap ++ t) = analyze s ++ analyze t := by
  have hnil : gap.toList ≠ [] := fun h => hne (String.toList_inj.mp h)
  rw [analyze_eq, analyze_eq, analyze_eq, String.toList_append, String.toList_append,
    words_append_gap hnil hgap, List.map_append, List.filter_append, List.map_append]

theorem analyze_of_alphanumeric {text : String}
    (h : ∀ c ∈ text.toList, isAlphanumeric c = true) :
    analyze text =
      if 1 ≤ text.utf8ByteSize ∧ text.utf8ByteSize ≤ maxTokenLength then [toLower text]
      else [] := by
  rw [analyze_eq, words_of_alphanumeric h]
  by_cases hempty : text = ""
  · subst hempty
    rfl
  · have hlist : text.toList ≠ [] := fun hnil => hempty (String.toList_inj.mp hnil)
    have hpos : 1 ≤ text.utf8ByteSize :=
      Nat.one_le_iff_ne_zero.mpr fun hzero => hempty (String.utf8ByteSize_eq_zero_iff.mp hzero)
    rw [if_neg hlist, List.map_singleton, String.ofList_toList]
    by_cases hlong : text.utf8ByteSize ≤ maxTokenLength <;> simp [hpos, hlong]

/-- Whether a text puts several ones together in order, with separators between any two. -/
inductive Joined : List String → String → Prop
  | single (text : String) : Joined [text] text
  | cons (text gap : String) {rest : List String} {joined : String} (nonempty : gap ≠ "")
      (separators : ∀ c ∈ gap.toList, isAlphanumeric c = false) (h : Joined rest joined) :
      Joined (text :: rest) (text ++ gap ++ joined)

theorem Joined.analyze_eq {texts : List String} {joined : String} (h : Joined texts joined) :
    analyze joined = texts.flatMap analyze := by
  induction h with
  | single text => simp
  | cons text gap nonempty separators _ ih =>
    rw [analyze_append_gap nonempty separators, ih, List.flatMap_cons]

end RowIndex.Text
