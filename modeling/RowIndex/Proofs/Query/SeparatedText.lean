import RowIndex.Proofs.Query.Meaning
import RowIndex.Proofs.Text.Runs

/-!
# Proofs/Query/SeparatedText — a text is sought in several values as in all of them joined

Tokens do not cross separators, so texts that are put together with separators between them have the
tokens of each, in order (`Text.Joined.analyze_eq`).  What a sought text scores depends on the
tokens of a field alone, and so is the same for its values and for the one value that joins them
(`score_matching_of_joined`).
-/

namespace RowIndex

/-- The strings of a field, in order. -/
def Document.strings (d : Document) (field : String) : List String :=
  (d.values field).filterMap FieldValue.asString?

/-- A field has the tokens of its joined strings. -/
theorem Document.tokens_of_joined {d : Document} {field joined : String}
    (h : Text.Joined (d.strings field) joined) : d.tokens field = Text.analyze joined :=
  h.analyze_eq.symm

namespace Query

/-- **A sought text scores alike in several values and in one that joins them.** -/
theorem score_matching_of_joined {d whole : Document} {field joined : String}
    (h : Text.Joined (d.strings field) joined) (hwhole : whole.strings field = [joined])
    (sought : String) :
    (matching field sought).score d = (matching field sought).score whole := by
  have hone : Text.Joined (whole.strings field) joined := hwhole ▸ .single joined
  rw [score_matching, score_matching, d.tokens_of_joined h, whole.tokens_of_joined hone]

end Query

namespace Text

/-- **A text is split exactly at its separators.**  The tokens of two texts with a separator between
them are those of the one and then those of the other.  A text of alphanumeric characters alone is
one token, lower-cased as a whole, if it has from 1 to 40 bytes, and none otherwise.  So the tokens
of any text are its maximal alphanumeric runs of at most 40 bytes, each lower-cased on its own, in
order; and a sought text scores in several values of a field what it scores in one value that joins
them with separators. -/
theorem analyze_splits_at_separators :
    (∀ (s t : String) (c : Char), isAlphanumeric c = false →
      analyze (s ++ String.singleton c ++ t) = analyze s ++ analyze t) ∧
    (∀ text : String, (∀ c ∈ text.toList, isAlphanumeric c = true) →
      analyze text =
        if 1 ≤ text.utf8ByteSize ∧ text.utf8ByteSize ≤ 40 then [toLower text] else []) ∧
    (∀ text : String, ∃ runs, ListsRuns text.toList runs ∧
      analyze text =
        ((runs.map fun r => String.ofList r.2).filter (·.utf8ByteSize ≤ 40)).map toLower) ∧
    ∀ (d whole : Document) (field joined : String), Joined (d.strings field) joined →
      whole.strings field = [joined] → ∀ sought : String,
        (Query.matching field sought).score d = (Query.matching field sought).score whole := by
  refine ⟨fun s t c hc => ?_, fun text => analyze_of_alphanumeric, fun text => ?_,
    fun d whole field joined => Query.score_matching_of_joined⟩
  · have hne : String.singleton c ≠ "" := fun h => by simpa using congrArg String.toList h
    refine analyze_append_gap hne (fun e he => ?_) s t
    rw [String.toList_singleton, List.mem_singleton] at he
    exact he ▸ hc
  · obtain ⟨runs, hruns, hwords⟩ := exists_runs text.toList
    refine ⟨runs, hruns, ?_⟩
    rw [analyze_eq, hwords, List.map_map]
    rfl

/-- A capital sigma ends its run, and so is lower-cased to its final form before a separator as at
the end of a text; 20 characters of two bytes are a token, and 21 are none; two words that stand in
different values are found in both, and in the value that joins them. -/
theorem analyze_splits_at_separators_of_greek :
    let word (n : Nat) : String := String.ofList (List.replicate n 'é')
    let d : Document := ⟨[⟨"bio", .text "ΟΔΟΣ 66"⟩, ⟨"n", .long 1⟩, ⟨"bio", .keyword "Größe"⟩]⟩
    let whole : Document := ⟨[⟨"bio", .text "ΟΔΟΣ 66; Größe"⟩]⟩
    (isAlphanumeric ' ' = false ∧
        analyze ("ΟΔΟΣ" ++ String.singleton ' ' ++ "66") = analyze "ΟΔΟΣ" ++ analyze "66" ∧
        analyze "ΟΔΟΣ" = ["οδος"]) ∧
      ((∀ c ∈ (word 20).toList, isAlphanumeric c = true) ∧ analyze (word 20) = [word 20]) ∧
      ((∀ c ∈ (word 21).toList, isAlphanumeric c = true) ∧ analyze (word 21) = []) ∧
      Joined (d.strings "bio") "ΟΔΟΣ 66; Größe" ∧
      whole.strings "bio" = ["ΟΔΟΣ 66; Größe"] ∧
      (Query.matching "bio" "größe οδος").score d =
        (Query.matching "bio" "größe οδος").score whole ∧
      (Query.matching "bio" "größe οδος").score whole = some (Binary.ofInt 2) := by
  intro word d whole
  obtain ⟨hcut, hone, -, hscore⟩ := analyze_splits_at_separators
  have hspace : isAlphanumeric ' ' = false := by decide
  have hgreek : ∀ c ∈ "ΟΔΟΣ".toList, isAlphanumeric c = true :=
    List.all_eq_true.mp (by decide +kernel)
  have hword (n : Nat) : ∀ c ∈ (word n).toList, isAlphanumeric c = true := by
    intro c hc
    rw [String.toList_ofList] at hc
    exact List.eq_of_mem_replicate hc ▸ by decide +kernel
  have hgap : ∀ c ∈ "; ".toList, isAlphanumeric c = false := by
    intro c hc
    have hmem : c = ';' ∨ c = ' ' := by simpa using hc
    rcases hmem with rfl | rfl <;> rfl
  have hjoined : Joined (d.strings "bio") "ΟΔΟΣ 66; Größe" :=
    .cons "ΟΔΟΣ 66" "; " (by decide) hgap (.single "Größe")
  refine ⟨⟨hspace, hcut _ _ _ hspace, (hone _ hgreek).trans (by decide +kernel)⟩,
    ⟨hword 20, (hone _ (hword 20)).trans (by decide +kernel)⟩,
    ⟨hword 21, (hone _ (hword 21)).trans (by decide +kernel)⟩, hjoined, by decide +kernel,
    hscore d whole "bio" _ hjoined (by decide +kernel) _, by decide +kernel⟩

end Text

end RowIndex
