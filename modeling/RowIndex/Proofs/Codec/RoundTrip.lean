import RowIndex.Proofs.Codec.Queries
import RowIndex.Proofs.Codec.Rows

/-!
# Proofs/Codec/RoundTrip — reading undoes writing

    value ──encode──▸ tree ──print──▸ text ──read──▸ tree ──decode──▸ value

Every tree is read back from its text, and every type decodes in a room well below that of a reader;
only queries nest without bound, and they are read back as long as the reader has room for their
tree (`roundTrips_floatFree`).  Values with a floating-point number are not covered: those without
a number in JSON are written as null.
-/

namespace RowIndex.Codec

variable {α : Type} [Codec α]

/-- All values with a property are read back from their text, so no two of them share one. -/
structure RoundTrips (P : α → Prop) : Prop where
  read?_eq : ∀ a, P a → read? (write a) = some a
  write_injective : ∀ a b, P a → P b → write a = write b → a = b

theorem RoundTrips.of_read?_eq {P : α → Prop} (h : ∀ a, P a → read? (write a) = some a) :
    RoundTrips P where
  read?_eq := h
  write_injective a b ha hb htext := by
    have hread := h b hb
    rw [← htext, h a ha] at hread
    exact Option.some.inj hread

/-- Types that decode in a fixed room are read back. -/
theorem RoundTrips.of_decodesIn {P : α → Prop} {n : Nat} (hn : n ≤ maxNesting)
    (h : ∀ a, P a → DecodesIn n a) : RoundTrips P :=
  .of_read?_eq fun a ha => (h a ha).read?_write hn

/-- A query is read back if the reader has room for its tree. -/
theorem read?_write_query {q : Query} (hfree : q.FloatFree)
    (hdepth : (encode q).depth ≤ maxNesting) : read? (write q) = some q := by
  rw [read?, write, Json.ofText?_toText, Option.bind_some]
  exact Query.ofJson?_toJson hfree hdepth

/-- **Reading undoes writing**, for every type and every value without floating-point numbers. -/
theorem roundTrips_floatFree :
    RoundTrips (fun _ : Token => True) ∧ RoundTrips (fun _ : Key => True) ∧
    RoundTrips Value.FloatFree ∧ RoundTrips Cell.FloatFree ∧ RoundTrips Mutation.FloatFree ∧
    RoundTrips (fun _ : Table => True) ∧ RoundTrips (fun _ : FieldSpec => True) ∧
    RoundTrips FieldValue.FloatFree ∧ RoundTrips (fun _ : Term => True) ∧
    RoundTrips Document.FloatFree ∧ RoundTrips (fun _ : SortOrder => True) ∧
    RoundTrips fun q : Query => q.FloatFree ∧ (encode q).depth ≤ maxNesting :=
  ⟨.of_decodesIn (by decide) fun t _ => t.decodesIn,
    .of_decodesIn (by decide) fun k _ => k.decodesIn,
    .of_decodesIn (by decide) fun _ => Value.decodesIn,
    .of_decodesIn (by decide) fun _ => Cell.decodesIn,
    .of_decodesIn (by decide) fun _ => Mutation.decodesIn,
    .of_decodesIn (by decide) fun t _ => t.decodesIn,
    .of_decodesIn (by decide) fun s _ => s.decodesIn,
    .of_decodesIn (by decide) fun _ => FieldValue.decodesIn,
    .of_decodesIn (by decide) fun t _ => t.decodesIn,
    .of_decodesIn (by decide) fun _ => Document.decodesIn,
    .of_decodesIn (by decide) fun s _ => s.decodesIn,
    .of_read?_eq fun _ h => read?_write_query h.1 h.2⟩

/-- Clauses in clauses, with the least integer, text that needs escapes, and text that reads like
another value. -/
theorem read?_write_of_nested_query :
    let q : Query := .boolean [.range "n" (.included (.long Int64.minValue)) .unbounded]
      [.boolean [.matching "\"t\"" "a\\b\x01é😀"] [] [.all]]
      [.term "k" (.keyword ""), .range "t" .unbounded (.excluded (.text "null"))]
    (q.FloatFree ∧ (encode q).depth ≤ maxNesting) ∧ read? (write q) = some q := by
  intro q
  have h : q.FloatFree ∧ (encode q).depth ≤ maxNesting := by
    refine ⟨by simp [q, Query.FloatFree, Query.AllFloatFree, Bound.FloatFree,
      FieldValue.FloatFree], ?_⟩
    decide
  obtain ⟨-, -, -, -, -, -, -, -, -, -, -, hquery⟩ := roundTrips_floatFree
  exact ⟨h, hquery.read?_eq q h⟩

end RowIndex.Codec
