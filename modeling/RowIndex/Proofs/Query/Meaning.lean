import Mathlib.Data.Finset.Card
import RowIndex.Proofs.Binary.Integers
import RowIndex.Proofs.Index.Plans

/-!
# Proofs/Query/Meaning — a query is a condition on the values of fields

Scoring adds up numbers and stops early, but whether there is a score is plain logic: every value,
range and text is a condition on one field, and clauses are joined by "and", "or" and "not"
(`Query.Holds`, `Query.finds_iff_holds`).  So factors can be dropped without a change of what is
found (`Query.finds_withoutBoosts`), negations and clauses obey the laws of logic, and the score of
a text is a number of tokens (`Query.sharedTokens_eq`).

    query ──score──▸ score ──is there one?──▸ Bool
      ╰───────────────Holds───────────────────▸ Prop
-/

namespace RowIndex

/-! ## Bounds -/

namespace Bound

/-- Whether a lower bound lies below a value: it is open, or comes before the value, or is the value
and included. -/
def LiesBelow (v : FieldValue) : Bound FieldValue → Prop
  | unbounded => True
  | included b => b = v ∨ b.Before v
  | excluded b => b.Before v

/-- Whether an upper bound lies above a value: it is open, or comes after the value, or is the value
and included. -/
def LiesAbove (v : FieldValue) : Bound FieldValue → Prop
  | unbounded => True
  | included b => v = b ∨ v.Before b
  | excluded b => v.Before b

variable {v : FieldValue} {b : Bound FieldValue}

theorem admitsAbove_iff : b.admitsAbove v = true ↔ b.LiesBelow v := by
  cases b with
  | unbounded => simp [admitsAbove, LiesBelow]
  | included b =>
    rw [admitsAbove, Bool.or_eq_true, decide_eq_true_eq, decide_eq_true_eq,
      FieldValue.compare?_eq_some_gt_iff, FieldValue.compare?_eq_some_eq_iff, or_comm, eq_comm]
    rfl
  | excluded b =>
    rw [admitsAbove, decide_eq_true_eq, FieldValue.compare?_eq_some_gt_iff]
    rfl

theorem admitsBelow_iff : b.admitsBelow v = true ↔ b.LiesAbove v := by
  cases b with
  | unbounded => simp [admitsBelow, LiesAbove]
  | included b =>
    rw [admitsBelow, Bool.or_eq_true, decide_eq_true_eq, decide_eq_true_eq,
      FieldValue.compare?_eq_some_lt_iff, FieldValue.compare?_eq_some_eq_iff, or_comm]
    rfl
  | excluded b =>
    rw [admitsBelow, decide_eq_true_eq, FieldValue.compare?_eq_some_lt_iff]
    rfl

end Bound

/-- The tokens of the strings of a field. -/
def Document.tokens (d : Document) (field : String) : List String :=
  ((d.values field).filterMap FieldValue.asString?).flatMap Text.analyze

namespace Query

/-! ## What a query says -/

/-- Whether a document satisfies a query.  Values are equal only if they are of one kind
(`FieldValue.compare?_eq_some_eq_iff`), and both bounds of a range are met by one and the same
value. -/
def Holds (d : Document) : Query → Prop
  | all => True
  | term field value => value ∈ d.values field
  | range field lower upper => ∃ v ∈ d.values field, lower.LiesBelow v ∧ upper.LiesAbove v
  | matching field text => ∃ token ∈ Text.analyze text, token ∈ d.tokens field
  | boolean must should mustNot =>
    (∀ query ∈ must, Holds d query) ∧ (∀ query ∈ mustNot, ¬Holds d query) ∧
      (must ≠ [] ∨ ∃ query, ∃ _ : query ∈ should, Holds d query)
  | boost query _ => Holds d query

variable (d : Document)

theorem finds_all : finds d all = true := by
  rw [finds, score]
  rfl

variable {d} in
theorem finds_term_iff {field : String} {value : FieldValue} :
    finds d (term field value) = true ↔ value ∈ d.values field := by
  rw [finds, score, isSome_scoreOf, List.any_eq_true]
  simp only [decide_eq_true_eq, FieldValue.compare?_eq_some_eq_iff, exists_eq_right]

variable {d} in
theorem finds_range_iff {field : String} {lower upper : Bound FieldValue} :
    finds d (range field lower upper) = true ↔
      ∃ v ∈ d.values field, lower.LiesBelow v ∧ upper.LiesAbove v := by
  rw [finds, score, isSome_scoreOf, List.any_eq_true]
  simp only [within, Bool.and_eq_true, Bound.admitsAbove_iff, Bound.admitsBelow_iff]

variable {d} in
theorem finds_boolean_iff {must should mustNot : List Query} :
    finds d (boolean must should mustNot) = true ↔
      (∀ query ∈ must, finds d query = true) ∧ (∀ query ∈ mustNot, finds d query = false) ∧
        (must ≠ [] ∨ ∃ query ∈ should, finds d query = true) := by
  rw [finds_boolean, clausesHold, Bool.and_eq_true, Bool.and_eq_true, Bool.or_eq_true,
    Bool.not_eq_true', Bool.not_eq_true', List.any_map, List.any_map, List.all_map,
    List.isEmpty_map, List.any_eq_true, List.all_eq_true, List.any_eq_false,
    List.isEmpty_eq_false_iff, and_comm (a := ∀ query ∈ mustNot, _), and_assoc]
  simp only [Function.comp_apply, id, Bool.not_eq_true]

theorem finds_boost (query : Query) (factor : Single) :
    finds d (boost query factor) = finds d query := by
  rw [finds, score, Option.isSome_map]
  rfl

/-- **A document has a score exactly if it satisfies the query.** -/
theorem finds_iff_holds (query : Query) : finds d query = true ↔ query.Holds d := by
  match query with
  | all => simp [finds_all, Holds]
  | term field value => rw [finds_term_iff, Holds]
  | range field lower upper => rw [finds_range_iff, Holds]
  | matching field text =>
    rw [finds_matching_iff, Holds]
    rfl
  | boolean must should mustNot =>
    rw [finds_boolean_iff, Holds]
    refine and_congr ?_ (and_congr ?_ (or_congr Iff.rfl (exists_congr fun clause => ?_)))
    · exact forall₂_congr fun clause _ => finds_iff_holds clause
    · exact forall₂_congr fun clause _ => by rw [← finds_iff_holds clause, Bool.not_eq_true]
    · rw [exists_prop]
      exact and_congr_right fun _ => finds_iff_holds clause
  | boost query factor => rw [Holds, ← finds_iff_holds query, finds_boost]

instance (query : Query) : Decidable (query.Holds d) :=
  decidable_of_iff _ (finds_iff_holds d query)

/-! ## Factors -/

mutual

/-- The query without its factors, at every nesting of clauses. -/
def withoutBoosts : Query → Query
  | all => all
  | term field value => term field value
  | range field lower upper => range field lower upper
  | matching field text => matching field text
  | boolean must should mustNot =>
    boolean (allWithoutBoosts must) (allWithoutBoosts should) (allWithoutBoosts mustNot)
  | boost query _ => withoutBoosts query

/-- The queries of a list without their factors. -/
def allWithoutBoosts : List Query → List Query
  | [] => []
  | query :: rest => withoutBoosts query :: allWithoutBoosts rest

end

mutual

/-- **Factors have no influence on what is found.** -/
theorem finds_withoutBoosts (query : Query) : finds d query.withoutBoosts = finds d query := by
  cases query with
  | all | term | range | matching => rw [withoutBoosts]
  | boolean must should mustNot =>
    rw [withoutBoosts, finds_boolean, finds_boolean, map_finds_withoutBoosts must,
      map_finds_withoutBoosts should, map_finds_withoutBoosts mustNot]
  | boost query factor => rw [withoutBoosts, finds_withoutBoosts query, finds_boost]

theorem map_finds_withoutBoosts (queries : List Query) :
    (allWithoutBoosts queries).map (finds d) = queries.map (finds d) := by
  cases queries with
  | nil => rw [allWithoutBoosts]
  | cons query rest =>
    rw [allWithoutBoosts, List.map_cons, List.map_cons, finds_withoutBoosts query,
      map_finds_withoutBoosts rest]

end

/-! ## Laws of clauses -/

theorem finds_neg (query : Query) : finds d query.neg = !finds d query := by
  simp [neg, finds_boolean, clausesHold, finds_all]

/-- A conjunction of no queries finds nothing. -/
theorem finds_conj (queries : List Query) :
    finds d (conj queries) = (!queries.isEmpty && queries.all (finds d)) := by
  simp [conj, finds_boolean, clausesHold, Bool.and_comm]

theorem finds_disj (queries : List Query) : finds d (disj queries) = queries.any (finds d) := by
  simp [disj, finds_boolean, clausesHold]

/-- **What satisfies none of several queries satisfies the negation of each**, and conversely. -/
theorem finds_neg_disj {queries : List Query} (h : queries ≠ []) :
    finds d (disj queries).neg = finds d (conj (queries.map neg)) := by
  have hnonempty : (queries.map neg).isEmpty = false := by
    rw [List.isEmpty_map]
    exact List.isEmpty_eq_false_iff.mpr h
  have hneg : finds d ∘ neg = fun query => !finds d query := funext (finds_neg d)
  rw [finds_neg, finds_disj, finds_conj, hnonempty, List.all_map, hneg, List.not_any_eq_all_not]
  rfl

/-! ## Numbers of tokens -/

/-- A list without its repetitions repeats nothing. -/
theorem nodup_eraseDups {α : Type} [BEq α] [LawfulBEq α] (l : List α) : l.eraseDups.Nodup := by
  match l with
  | [] => exact List.nodup_nil
  | a :: l =>
    rw [List.eraseDups_cons, List.nodup_cons, List.mem_eraseDups, List.mem_filter]
    exact ⟨by simp, nodup_eraseDups _⟩
  termination_by l.length
  decreasing_by exact Nat.lt_succ_of_le (List.length_filter_le _ _)

/-- **Shared tokens are counted once each**, however often they occur on either side. -/
theorem sharedTokens_eq (field text : String) :
    sharedTokens text (d.values field) =
      ((Text.analyze text).toFinset ∩ (d.tokens field).toFinset).card := by
  rw [sharedTokens, ← List.toFinset_card_of_nodup ((nodup_eraseDups _).filter _)]
  refine congrArg Finset.card (Finset.ext fun token => ?_)
  simp only [List.mem_toFinset, List.mem_filter, List.mem_eraseDups, List.contains_iff_mem,
    Finset.mem_inter]
  rfl

theorem score_matching (field text : String) :
    (matching field text).score d =
      let shared := ((Text.analyze text).toFinset ∩ (d.tokens field).toFinset).card
      if shared = 0 then none else some (Binary.ofInt shared) := by
  rw [score, sharedTokens_eq]
  split
  · rename_i hpos
    exact (if_neg (Nat.ne_of_gt hpos)).symm
  · rename_i hzero
    exact (if_pos (Nat.eq_zero_of_not_pos hzero)).symm

/-- **Queries are boolean logic over the values of fields.**  A document has a score exactly if it
satisfies the query; dropping all factors, negating twice and moving a negation into clauses change
nothing about that.  A text scores the number of its distinct tokens that the field has, exactly up
to `2 ^ 24`, where the integers that are scores begin to have gaps. -/
theorem isSome_score_iff_holds :
    (∀ query : Query, (query.score d).isSome = true ↔ query.Holds d) ∧
    (∀ query : Query, (query.withoutBoosts.score d).isSome = (query.score d).isSome) ∧
    (∀ query : Query, (query.neg.neg.score d).isSome = (query.score d).isSome) ∧
    (∀ queries : List Query, queries ≠ [] →
      ((disj queries).neg.score d).isSome = ((conj (queries.map neg)).score d).isSome) ∧
    ∀ field text : String,
      let shared := ((Text.analyze text).toFinset ∩ (d.tokens field).toFinset).card
      (matching field text).score d =
          (if shared = 0 then none else some (Binary.ofInt shared)) ∧
        (shared ≤ 2 ^ 24 →
          (Binary.ofInt shared : Single).signedUnits = shared * 2 ^ BinaryFormat.single.scale) := by
  refine ⟨finds_iff_holds d, finds_withoutBoosts d, fun query => ?_, fun _ => finds_neg_disj d,
    fun field text => ⟨score_matching d field text, fun hexact => ?_⟩⟩
  · change finds d query.neg.neg = finds d query
    rw [finds_neg, finds_neg, Bool.not_not]
  · exact Binary.signedUnits_ofInt (F := .single) (by decide) hexact

/-- Each end of the range is met by one of two numbers, but neither number meets both; of the three
distinct words that are sought, two are found, one of them twice. -/
theorem isSome_score_iff_holds_of_repeated_fields :
    let d : Document :=
      ⟨[⟨"n", .long 3⟩, ⟨"n", .long 9⟩, ⟨"bio", .text "Rust, go"⟩, ⟨"bio", .text "go fast"⟩]⟩
    let between := range "n" (.included (.long 4)) (.excluded (.long 9))
    let words := matching "bio" "GO fast go slow"
    let queries := [between, boost words (Binary.ofInt 2)]
    ¬between.Holds d ∧ words.Holds d ∧ queries ≠ [] ∧
      ((disj queries).neg.score d).isSome = ((conj (queries.map neg)).score d).isSome ∧
      (words.score d = some (Binary.ofInt 2) ∧
        (Binary.ofInt 2 : Single).signedUnits = 2 * 2 ^ BinaryFormat.single.scale) := by
  intro d between words queries
  obtain ⟨hholds, -, -, hclauses, hscore⟩ := isSome_score_iff_holds d
  obtain ⟨hwords, hexact⟩ := hscore "bio" "GO fast go slow"
  have hshared :
      ((Text.analyze "GO fast go slow").toFinset ∩ (d.tokens "bio").toFinset).card = 2 := by
    decide +kernel
  rw [hshared] at hwords hexact
  refine ⟨fun h => ?_, (hholds words).mp (by rw [hwords]; rfl), List.cons_ne_nil _ _,
    hclauses queries (List.cons_ne_nil _ _), hwords, hexact (by decide)⟩
  exact absurd ((hholds between).mpr h) (by decide +kernel)

end Query

end RowIndex
