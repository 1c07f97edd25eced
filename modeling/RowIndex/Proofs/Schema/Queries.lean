import RowIndex.Proofs.Index.Plans
import RowIndex.Proofs.Schema.Fields

/-!
# Proofs/Schema/Queries — the queries that a schema makes

A query on a mapped field is about the values that its mapper reads, and carries the mapper's
factor.  A text field is sought by tokens, any other by values of the mapper's kind
(`coerce_of_termQuery`); the bounds of a range are open where no value is given (`boundOf_eq_ok`).
-/

namespace RowIndex

/-- Only text becomes text, and as it is. -/
theorem Mapper.eq_text_of_coerce {m : Mapper} {field text : String} {raw : Value}
    (h : m.coerce field raw = .ok (.text text)) : raw = .text text := by
  obtain ⟨type, boost⟩ := m
  cases type with
  | integer | long | float | double | boolean | blob =>
    obtain ⟨_, -, h⟩ := map_eq_ok_iff.mp h
    contradiction
  | string caseSensitive =>
    cases raw <;> cases h
  | text =>
    cases raw <;> cases h
    rfl

/-- A mapper of text takes texts as they are. -/
theorem Mapper.coerce_text {m : Mapper} (hkind : m.kind = .text) (field text : String) :
    m.coerce field (.text text) = .ok (.text text) := by
  obtain ⟨type, boost⟩ := m
  cases type with
  | text => rfl
  | integer | long | float | double | string | boolean | blob => contradiction

namespace Schema

variable {s : Schema} {field : String} {m : Mapper} (hm : s.mapper? field = some m)

include hm

theorem require_of_mapper? : s.require field = .ok m := by
  rw [require, hm]

/-- A value that the mapper reads can be sought. -/
theorem exists_termQuery {value : Value} {v : FieldValue} (hv : m.coerce field value = .ok v) :
    ∃ q, s.termQuery field value = .ok q :=
  ⟨_, bind_eq_ok_iff.mpr ⟨m, require_of_mapper? hm, bind_eq_ok_iff.mpr ⟨v, hv, rfl⟩⟩⟩

/-- A value is sought as the mapper reads it: text by its tokens, other values as they are. -/
theorem coerce_of_termQuery {value : Value} {q : Query} (h : s.termQuery field value = .ok q) :
    (∃ text, m.coerce field value = .ok (.text text) ∧
        q = (Query.matching field text).boosted m.boost) ∨
      ∃ v, m.coerce field value = .ok v ∧ v.kind ≠ .text ∧
        q = (Query.term field v).boosted m.boost := by
  obtain ⟨_, hrequire, h⟩ := bind_eq_ok_iff.mp h
  obtain rfl := Except.ok.inj ((require_of_mapper? hm).symm.trans hrequire)
  obtain ⟨v, hv, h⟩ := bind_eq_ok_iff.mp h
  have hq := (Except.ok.inj h).symm
  cases v with
  | text text => exact .inl ⟨text, hv, hq⟩
  | long | double | keyword => exact .inr ⟨_, hv, nofun, hq⟩

/-- Only the field of a text mapper is sought by tokens. -/
theorem exists_of_termQuery {value : Value} {q : Query} (h : s.termQuery field value = .ok q) :
    (∃ text, value = .text text ∧ m.kind = .text ∧
        q = (Query.matching field text).boosted m.boost) ∨
      ∃ v, v.kind = m.kind ∧ m.kind ≠ .text ∧ q = (Query.term field v).boosted m.boost := by
  rcases coerce_of_termQuery hm h with ⟨text, hv, hq⟩ | ⟨v, hv, hkind, hq⟩
  · exact .inl ⟨text, Mapper.eq_text_of_coerce hv, (Mapper.kind_coerce hv).symm, hq⟩
  · exact .inr ⟨v, Mapper.kind_coerce hv, Mapper.kind_coerce hv ▸ hkind, hq⟩

/-- The bounds of a range are read by the mapper. -/
theorem exists_of_rangeQuery {lower upper : Option Value} {includeLower includeUpper : Bool}
    {q : Query} (h : s.rangeQuery field lower upper includeLower includeUpper = .ok q) :
    ∃ low high, boundOf m field lower includeLower = .ok low ∧
      boundOf m field upper includeUpper = .ok high ∧
      q = (Query.range field low high).boosted m.boost := by
  obtain ⟨_, hrequire, h⟩ := bind_eq_ok_iff.mp h
  obtain rfl := Except.ok.inj ((require_of_mapper? hm).symm.trans hrequire)
  obtain ⟨low, hlow, h⟩ := bind_eq_ok_iff.mp h
  obtain ⟨high, hhigh, h⟩ := bind_eq_ok_iff.mp h
  exact ⟨low, high, hlow, hhigh, (Except.ok.inj h).symm⟩

theorem rangeQuery_eq_ok {lower upper : Option Value} {includeLower includeUpper : Bool}
    {low high : Bound FieldValue} (hlow : boundOf m field lower includeLower = .ok low)
    (hhigh : boundOf m field upper includeUpper = .ok high) :
    s.rangeQuery field lower upper includeLower includeUpper =
      .ok ((Query.range field low high).boosted m.boost) :=
  bind_eq_ok_iff.mpr ⟨m, require_of_mapper? hm, bind_eq_ok_iff.mpr ⟨low, hlow,
    bind_eq_ok_iff.mpr ⟨high, hhigh, rfl⟩⟩⟩

theorem eq_of_matchQuery {text : String} {q : Query} (h : s.matchQuery field text = .ok q) :
    q = (Query.matching field text).boosted m.boost := by
  obtain ⟨_, hrequire, h⟩ := bind_eq_ok_iff.mp h
  obtain rfl := Except.ok.inj ((require_of_mapper? hm).symm.trans hrequire)
  exact (Except.ok.inj h).symm

omit hm

/-- A bound is open if its value is missing, and otherwise of the mapper's kind. -/
theorem boundOf_eq_ok {value : Option Value} {inclusive : Bool} {b : Bound FieldValue}
    (h : boundOf m field value inclusive = .ok b) :
    (value = none ∧ b = .unbounded) ∨
      ∃ raw v, value = some raw ∧ m.coerce field raw = .ok v ∧ b.value? = some v := by
  cases value with
  | none => exact .inl ⟨rfl, (Except.ok.inj h).symm⟩
  | some raw =>
    obtain ⟨v, hv, rfl⟩ := map_eq_ok_iff.mp h
    refine .inr ⟨raw, v, rfl, hv, ?_⟩
    cases inclusive <;> rfl

theorem ofKind_of_boundOf {value : Option Value} {inclusive : Bool} {b : Bound FieldValue}
    (h : boundOf m field value inclusive = .ok b) : b.OfKind m.kind := by
  rcases boundOf_eq_ok h with ⟨-, rfl⟩ | ⟨_, v, -, hv, hvalue⟩
  · trivial
  · cases b with
    | unbounded => trivial
    | included w | excluded w =>
      obtain rfl := Option.some.inj hvalue
      exact Mapper.kind_coerce hv

/-- A bound has a value if it is given one. -/
theorem isSome_value?_of_boundOf {value : Option Value} {inclusive : Bool} {b : Bound FieldValue}
    (h : boundOf m field value inclusive = .ok b) : b.value?.isSome = value.isSome := by
  rcases boundOf_eq_ok h with ⟨rfl, rfl⟩ | ⟨_, v, rfl, -, hvalue⟩
  · rfl
  · rw [hvalue]
    rfl

/-- The first bound of texts is the first text that is given. -/
theorem value?_or_of_boundOf (hkind : m.kind = .text) {lower upper : Option Value}
    {includeLower includeUpper : Bool} {low high : Bound FieldValue}
    (hlow : boundOf m field lower includeLower = .ok low)
    (hhigh : boundOf m field upper includeUpper = .ok high) {text : String}
    (h : lower.or upper = some (.text text)) : low.value?.or high.value? = some (.text text) := by
  have hvalue {v : FieldValue} (hv : m.coerce field (.text text) = .ok v) : v = .text text :=
    (Except.ok.inj ((Mapper.coerce_text hkind field text).symm.trans hv)).symm
  rcases boundOf_eq_ok hlow with ⟨rfl, rfl⟩ | ⟨_, v, rfl, hv, hfirst⟩
  · rcases boundOf_eq_ok hhigh with ⟨rfl, rfl⟩ | ⟨_, v, rfl, hv, hsecond⟩
    · contradiction
    · obtain rfl := Option.some.inj h
      obtain rfl := hvalue hv
      exact hsecond
  · obtain rfl := Option.some.inj h
    obtain rfl := hvalue hv
    rw [hfirst]
    rfl

end Schema

end RowIndex
