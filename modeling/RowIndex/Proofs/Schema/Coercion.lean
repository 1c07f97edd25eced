import RowIndex.Proofs.Schema.Fields

/-!
# Proofs/Schema/Coercion — in a schema that validates, values fit their mappers

    mapper ──accepts── type of the column
                            ‖
    mapper ──reads──── type of the value

A mapper reads values of the types that it accepts.  A schema that validates has asked each of its
mappers about the column's type, and the values of a column are of that type; so a row is refused
for what its values say, and never for what they are (`Schema.kind_of_addFields_error`).
-/

namespace RowIndex

/-- The type of the values in a column of a type: ASCII text is text. -/
def CellType.ofValues : CellType → CellType
  | ascii => text
  | type => type

/-- A mapper takes a column if it takes the values of the column. -/
theorem Mapper.accepts_ofValues (m : Mapper) (type : CellType) :
    m.accepts type.ofValues = m.accepts type := by
  obtain ⟨mapper, boost⟩ := m
  cases type <;> cases mapper <;> rfl

/-- A row whose values have the types that a table declares for their columns. -/
def Row.Conforms (r : Row) (t : Table) : Prop :=
  ∀ name column raw, t.column? name = some column → r.value? name = some raw →
    raw.cellType = column.type.ofValues

namespace Schema

/-- A mapper of a schema that validates accepts the types of conforming values. -/
theorem accepts_of_validate {s : Schema} {t : Table} {r : Row} (hs : s.validate t = .ok ())
    (hr : r.Conforms t) {f : MappedField} (hf : f ∈ s.fields.entries) {raw : Value}
    (hcolumn : (t.column? f.name).isSome = true) (hraw : r.value? f.name = some raw) :
    f.mapper.accepts raw.cellType = true := by
  obtain ⟨column, hcolumn⟩ := Option.isSome_iff_exists.mp hcolumn
  obtain ⟨-, -, haccepts⟩ := checkField_eq_ok_iff.mp (forM_eq_ok_iff.mp hs f hf)
  rw [hr _ _ _ hcolumn hraw, Mapper.accepts_ofValues]
  exact haccepts column hcolumn

/-- A row of a schema that validates is refused for a value that cannot be read. -/
theorem kind_of_addFields_error {s : Schema} {t : Table} {r : Row} (hs : s.validate t = .ok ())
    (hr : r.Conforms t) {d : Document} {e : Error} (he : s.addFields d t r = .error e) :
    e.kind = .validation ∧ ∃ f ∈ s.fields.entries, e.field? = some f.name := by
  obtain ⟨before, f, after, hentries, -, hf⟩ := addFields_eq_error_iff.mp he
  obtain ⟨raw, hcolumn, hraw, hcoerce⟩ := fieldsOf_eq_error_iff.mp hf
  have hmem : f ∈ s.fields.entries := by simp [hentries]
  have haccepts := accepts_of_validate hs hr hmem hcolumn hraw
  obtain ⟨hkind, hfield⟩ := (f.mapper.screens_coerce f.name raw).unreadable haccepts e hcoerce
  exact ⟨hkind, f, hmem, hfield⟩

/-- **Declared column types and the reading of values agree.**  A mapper fails with a type mismatch
exactly for the values of a type that it does not accept; every other failure is one of validation,
and each names the field.  So a schema that validates against a table never finds a type mismatch in
a row whose values have the types of their columns: what it refuses, it refuses for a value of a
mapped field that cannot be read. -/
theorem coerce_agrees_with_accepts :
    (∀ (m : Mapper) (field : String) (raw : Value),
      ((∃ e, m.coerce field raw = .error e ∧ e.kind = .typeMismatch) ↔
        m.accepts raw.cellType = false) ∧
      ∀ e, m.coerce field raw = .error e →
        (e = .typeMismatch field raw.display ∨ e.kind = .validation) ∧ e.field? = some field) ∧
    ∀ (s : Schema) (t : Table) (r : Row), s.validate t = .ok () → r.Conforms t →
      ∀ d e, s.addFields d t r = .error e →
        e.kind = .validation ∧ ∃ f ∈ s.fields.entries, e.field? = some f.name := by
  refine ⟨fun m field raw => ⟨(m.screens_coerce field raw).typeMismatch_iff, fun e he => ?_⟩,
    fun s t r hs hr d e => kind_of_addFields_error hs hr⟩
  rcases (m.screens_coerce field raw).eq_or_kind_eq he with rfl | ⟨hkind, hfield⟩
  · exact ⟨Or.inl rfl, rfl⟩
  · exact ⟨Or.inr hkind, hfield⟩

/-- A column of ASCII text feeds a mapper of integers: digits are read, other text is unreadable,
and a truth value would be of the wrong type. -/
theorem coerce_agrees_with_accepts_of_digits :
    let m : Mapper := { type := .long }
    let s : Schema := .ofList [⟨"n", m⟩]
    let t : Table := ⟨"t", [⟨"n", .ascii⟩]⟩
    let r : Row := .ofCells (Partitioner.byteOrdered.place [1]) [⟨"n", some (.text "7x"), 1⟩]
    s.validate t = .ok () ∧ r.Conforms t ∧
      (∃ e, s.addFields {} t r = .error e ∧ e.kind = .validation) ∧
      m.accepts (Value.boolean true).cellType = false ∧
      (∃ e, m.coerce "n" (.boolean true) = .error e ∧ e.kind = .typeMismatch) ∧
      m.coerce "n" (.text " 7") = .ok (.long 7) := by
  intro m s t r
  have hs : s.validate t = .ok () := by decide +kernel
  have hr : r.Conforms t := by
    intro name column raw hcolumn hraw
    obtain rfl := List.mem_singleton.mp (List.mem_of_find?_eq_some hcolumn)
    obtain rfl : "n" = name := by simpa using List.find?_some hcolumn
    have hn : r.value? "n" = some (.text "7x") := by decide +kernel
    exact Option.some.inj (hn.symm.trans hraw) ▸ rfl
  have he : s.addFields {} t r = .error (.unreadable "n" .long "7x") := by decide +kernel
  obtain ⟨hmapper, hrow⟩ := coerce_agrees_with_accepts
  exact ⟨hs, hr, ⟨_, he, (hrow s t r hs hr _ _ he).1⟩, rfl, (hmapper m "n" _).1.mpr rfl,
    by decide +kernel⟩

end Schema

end RowIndex
