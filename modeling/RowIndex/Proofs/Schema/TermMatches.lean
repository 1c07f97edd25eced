import RowIndex.Proofs.Query.Meaning
import RowIndex.Proofs.Schema.Queries

/-!
# Proofs/Schema/TermMatches — a value is sought as it was stored

The cell of a row and the value that is sought pass the same mapper, one on its way into the
document and the other on its way into the query.  So a row is found exactly if the mapper makes the
same of both, or if both are texts that share a token (`Schema.isSome_score_termQuery`).

    cell  ──coerce──▸ value of the document
                        ‖ ?
    value ──coerce──▸ value of the query
-/

namespace RowIndex

theorem Mapper.kind_eq_text_iff {m : Mapper} : m.kind = .text ↔ m.type = .text := by
  obtain ⟨type, boost⟩ := m
  cases type <;> simp [kind]

/-- Whether a mapper takes a stored value and one that is sought for the same: it makes the same of
both, or, if it is a text mapper, both are texts that share a token. -/
def Mapper.Equates (m : Mapper) (field : String) (stored sought : Value) : Prop :=
  if m.type = .text then
    ∃ text words, stored = .text text ∧ sought = .text words ∧
      ∃ token ∈ Text.analyze words, token ∈ Text.analyze text
  else ∃ v, m.coerce field stored = .ok v ∧ m.coerce field sought = .ok v

/-- A value is equated with itself unless it is a text without tokens. -/
theorem Mapper.equates_self_iff (m : Mapper) {field : String} {stored : Value} {v : FieldValue}
    (hv : m.coerce field stored = .ok v) :
    m.Equates field stored stored ↔
      ¬(m.type = .text ∧ ∃ text, stored = .text text ∧ Text.analyze text = []) := by
  by_cases htype : m.type = .text
  · obtain ⟨text, rfl⟩ : ∃ text, stored = .text text := by
      have hkind := (kind_coerce hv).trans (kind_eq_text_iff.mpr htype)
      cases v with
      | text text => exact ⟨text, eq_text_of_coerce hv⟩
      | long | double | keyword => contradiction
    rw [Equates, if_pos htype]
    simp [htype, List.eq_nil_iff_forall_not_mem]
  · rw [Equates, if_neg htype]
    simp [htype, hv]

namespace Schema

variable {s : Schema} {t : Table} {r : Row} {d : Document} {field : String} {m : Mapper}
  (hd : s.addFields {} t r = .ok d) (hm : s.mapper? field = some m)

include hd hm

/-- A value of another kind than text is found where the mapper has made it of a cell. -/
theorem finds_term_of_addFields {v : FieldValue} :
    Query.finds d (.term field v) = true ↔ (t.column? field).isSome = true ∧
      ∃ stored, r.value? field = some stored ∧ m.coerce field stored = .ok v := by
  rw [Query.finds_term_iff, mem_values_of_addFields hd hm rfl]

/-- A text is found where a cell holds a text that shares a token with it. -/
theorem finds_matching_of_addFields (htype : m.type = .text) {text : String} :
    Query.finds d (.matching field text) = true ↔ (t.column? field).isSome = true ∧
      ∃ stored, r.value? field = some (.text stored) ∧
        ∃ token ∈ Text.analyze text, token ∈ Text.analyze stored := by
  have hkind : m.kind = .text := Mapper.kind_eq_text_iff.mpr htype
  have hstrings (stored : String) : stored ∈ (d.values field).filterMap FieldValue.asString? ↔
      (t.column? field).isSome = true ∧ r.value? field = some (.text stored) := by
    rw [List.mem_filterMap]
    constructor
    · rintro ⟨v, hv, hstring⟩
      obtain ⟨hcolumn, raw, hraw, hcoerce⟩ := (mem_values_of_addFields hd hm rfl).mp hv
      have hv' := (Mapper.kind_coerce hcoerce).trans hkind
      cases v with
      | text t =>
        obtain rfl := Option.some.inj hstring
        exact ⟨hcolumn, Mapper.eq_text_of_coerce hcoerce ▸ hraw⟩
      | long | double | keyword => contradiction
    · rintro ⟨hcolumn, hraw⟩
      exact ⟨.text stored, (mem_values_of_addFields hd hm rfl).mpr
        ⟨hcolumn, _, hraw, Mapper.coerce_text hkind field stored⟩, rfl⟩
  rw [Query.finds_matching_iff]
  simp only [List.mem_flatMap, hstrings]
  constructor
  · rintro ⟨token, htext, stored, ⟨hcolumn, hraw⟩, htoken⟩
    exact ⟨hcolumn, stored, hraw, token, htext, htoken⟩
  · rintro ⟨hcolumn, stored, hraw, token, htext, htoken⟩
    exact ⟨token, htext, stored, ⟨hcolumn, hraw⟩, htoken⟩

/-- What is stored has been read by the mapper. -/
theorem exists_coerce_of_addFields {stored : Value} (hcolumn : (t.column? field).isSome = true)
    (hstored : r.value? field = some stored) : ∃ v, m.coerce field stored = .ok v := by
  obtain ⟨own, hown, -⟩ := exists_values_of_addFields hd hm
  obtain ⟨column, hcolumn⟩ := Option.isSome_iff_exists.mp hcolumn
  rw [fieldsOf, hcolumn, Option.bind_some, hstored] at hown
  obtain ⟨v, hv, -⟩ := map_eq_ok_iff.mp hown
  exact ⟨v, hv⟩

theorem finds_termQuery_iff {value : Value} {q : Query} (hq : s.termQuery field value = .ok q) :
    Query.finds d q = true ↔ (t.column? field).isSome = true ∧
      ∃ stored, r.value? field = some stored ∧ m.Equates field stored value := by
  rcases coerce_of_termQuery hm hq with ⟨words, hv, rfl⟩ | ⟨v, hv, hkind, rfl⟩
  · have htype : m.type = .text := Mapper.kind_eq_text_iff.mp (Mapper.kind_coerce hv).symm
    obtain rfl := Mapper.eq_text_of_coerce hv
    rw [Query.finds_boosted, finds_matching_of_addFields hd hm htype]
    simp only [Mapper.Equates, if_pos htype]
    refine and_congr_right fun _ => ⟨?_, ?_⟩
    · rintro ⟨text, hstored, hshared⟩
      exact ⟨_, hstored, text, words, rfl, rfl, hshared⟩
    · rintro ⟨_, hstored, text, _, rfl, hwords, hshared⟩
      cases hwords
      exact ⟨text, hstored, hshared⟩
  · have htype : m.type ≠ .text := fun htype =>
      hkind ((Mapper.kind_coerce hv).trans (Mapper.kind_eq_text_iff.mpr htype))
    rw [Query.finds_boosted, finds_term_of_addFields hd hm]
    simp only [Mapper.Equates, if_neg htype, hv, Except.ok.injEq, exists_eq_right']

/-- **A term query finds a row exactly if the row stores the value**: the table has the column, the
row a live cell in it, and the mapper makes the same of the cell as of the value that is sought, or,
if it is a text mapper, both are texts that share a token.  So a row is found by what it stores,
unless that is a text without tokens. -/
theorem isSome_score_termQuery :
    (∀ value q, s.termQuery field value = .ok q →
      ((q.score d).isSome = true ↔ (t.column? field).isSome = true ∧
        ∃ stored, r.value? field = some stored ∧ m.Equates field stored value)) ∧
    ∀ stored, (t.column? field).isSome = true → r.value? field = some stored →
      ∃ q, s.termQuery field stored = .ok q ∧
        ((q.score d).isSome = true ↔
          ¬(m.type = .text ∧ ∃ text, stored = .text text ∧ Text.analyze text = [])) := by
  refine ⟨fun value q => finds_termQuery_iff hd hm, fun stored hcolumn hstored => ?_⟩
  obtain ⟨v, hv⟩ := exists_coerce_of_addFields hd hm hcolumn hstored
  obtain ⟨q, hq⟩ := exists_termQuery hm hv
  refine ⟨q, hq, (finds_termQuery_iff hd hm hq).trans ?_⟩
  rw [and_iff_right hcolumn]
  constructor
  · rintro ⟨_, hsame, hequates⟩
    obtain rfl := Option.some.inj (hstored.symm.trans hsame)
    exact (m.equates_self_iff hv).mp hequates
  · exact fun h => ⟨stored, hstored, (m.equates_self_iff hv).mpr h⟩

omit hd hm

/-- A stored text is found by the number that it is cut to; but zeros of different signs differ, and
a text without tokens is not found by itself. -/
theorem isSome_score_termQuery_of_mixed_row :
    let s : Schema := .ofList
      [⟨"bio", { type := .text }⟩, ⟨"n", { type := .long }⟩, ⟨"x", { type := .double }⟩]
    let t : Table := ⟨"t", [⟨"bio", .text⟩, ⟨"n", .text⟩, ⟨"x", .double⟩]⟩
    let r : Row := .ofCells (Partitioner.byteOrdered.place [1]) [⟨"bio", some (.text "--"), 1⟩,
      ⟨"n", some (.text " 7.5"), 1⟩, ⟨"x", some (.double (Binary.zero true)), 1⟩]
    let d : Document :=
      ⟨[⟨"bio", .text "--"⟩, ⟨"n", .long 7⟩, ⟨"x", .double (Binary.zero true)⟩]⟩
    s.addFields {} t r = .ok d ∧
      (∃ q, s.termQuery "n" (.int 7) = .ok q ∧ (q.score d).isSome = true) ∧
      (∃ q, s.termQuery "x" (.int 0) = .ok q ∧ ¬(q.score d).isSome = true) ∧
      ∃ q, s.termQuery "bio" (.text "--") = .ok q ∧ ¬(q.score d).isSome = true := by
  intro s t r d
  have hd : s.addFields {} t r = .ok d := by decide +kernel
  have hbio : s.mapper? "bio" = some { type := .text } := by decide +kernel
  have hn : s.mapper? "n" = some { type := .long } := by decide +kernel
  have hx : s.mapper? "x" = some { type := .double } := by decide +kernel
  obtain ⟨q, hq, hself⟩ := (isSome_score_termQuery hd hbio).2 (.text "--") (by decide +kernel)
    (by decide +kernel)
  refine ⟨hd, ⟨_, rfl, ?_⟩, ⟨_, rfl, ?_⟩, q, hq, ?_⟩
  · refine ((isSome_score_termQuery hd hn).1 (.int 7) _ rfl).mpr ⟨by decide +kernel,
      .text " 7.5", by decide +kernel, ?_⟩
    rw [Mapper.Equates, if_neg (by decide)]
    exact ⟨.long 7, by decide +kernel, by decide +kernel⟩
  · rw [(isSome_score_termQuery hd hx).1 (.int 0) _ rfl]
    rintro ⟨-, stored, hstored, hequates⟩
    have hzero : r.value? "x" = some (.double (Binary.zero true)) := by decide +kernel
    obtain rfl := Option.some.inj (hzero.symm.trans hstored)
    rw [Mapper.Equates, if_neg (by decide)] at hequates
    obtain ⟨v, hv, hsought⟩ := hequates
    exact absurd (hv.trans hsought.symm) (by decide +kernel)
  · rw [hself, not_not]
    exact ⟨rfl, "--", rfl, by decide +kernel⟩

end Schema

end RowIndex
