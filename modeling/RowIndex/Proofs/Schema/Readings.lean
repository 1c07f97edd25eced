import RowIndex.Mapper
import RowIndex.Proofs.Outcomes

/-!
# Proofs/Schema/Readings — what a mapper makes of a value, or why it refuses it

    column type ──accepts──▸ taken, or not
        ‖
    value ──coerce──▸ value of the mapper's kind, or unreadable │ type mismatch

A mapper says which types it takes, and apart from that reads values by their constructors.  Both
tell the same values apart (`Mapper.screens_coerce`): a value of a type that is not taken is a type
mismatch, and one that is taken can only be unreadable.  What is read is of the mapper's own kind
(`Mapper.kind_coerce`).
-/

namespace RowIndex

namespace Mapper

/-- **A mapper makes values of the kind that it declares.** -/
theorem kind_coerce {m : Mapper} {field : String} {raw : Value} {v : FieldValue}
    (h : m.coerce field raw = .ok v) : v.kind = m.kind := by
  obtain ⟨type, boost⟩ := m
  cases type with
  | integer | long | float | double | boolean | blob =>
    obtain ⟨_, -, rfl⟩ := map_eq_ok_iff.mp h
    rfl
  | string caseSensitive =>
    cases raw <;> cases h <;> rfl
  | text =>
    cases raw <;> cases h
    rfl

/-! ## Refused values -/

variable {α β : Type} {taken : Bool} {field : String} {raw : Value} {x : Except Error α}

/-- A reading of a value sorts its failures: a value of a type that is not taken is a type mismatch,
and one of a type that is taken can only be unreadable. -/
structure Screens (taken : Bool) (field : String) (raw : Value) (x : Except Error α) : Prop where
  mismatch : taken = false → x = .error (.typeMismatch field raw.display)
  unreadable : taken = true → ∀ e, x = .error e → e.kind = .validation ∧ e.field? = some field

namespace Screens

theorem of_ok {a : α} : Screens true field raw (.ok a) := ⟨nofun, nofun⟩

theorem of_mismatch :
    Screens false field raw (.error (.typeMismatch field raw.display) : Except Error α) :=
  ⟨fun _ => rfl, nofun⟩

theorem of_unreadable {e : Error} (hkind : e.kind = .validation) (hfield : e.field? = some field) :
    Screens true field raw (.error e : Except Error α) :=
  ⟨nofun, fun _ _ h => Except.error.inj h ▸ ⟨hkind, hfield⟩⟩

/-- What is made of a reading does not matter. -/
theorem map (h : Screens taken field raw x) (f : α → β) : Screens taken field raw (x.map f) where
  mismatch htaken := map_eq_error_iff.mpr (h.mismatch htaken)
  unreadable htaken e he := h.unreadable htaken e (map_eq_error_iff.mp he)

/-- The sort of the failure tells whether the type is taken. -/
theorem typeMismatch_iff (h : Screens taken field raw x) :
    (∃ e, x = .error e ∧ e.kind = .typeMismatch) ↔ taken = false := by
  constructor
  · rintro ⟨e, he, hkind⟩
    refine Bool.eq_false_iff.mpr fun htaken => ?_
    rw [(h.unreadable htaken e he).1] at hkind
    contradiction
  · exact fun htaken => ⟨_, h.mismatch htaken, rfl⟩

/-- A failure is a type mismatch or an unreadable value. -/
theorem eq_or_kind_eq (h : Screens taken field raw x) {e : Error} (he : x = .error e) :
    e = .typeMismatch field raw.display ∨ e.kind = .validation ∧ e.field? = some field := by
  cases htaken : taken with
  | false => exact Or.inl (Except.error.inj (he.symm.trans (h.mismatch htaken)))
  | true => exact Or.inr (h.unreadable htaken e he)

end Screens

theorem screens_readNumber (field : String) (expected : Expectation) (raw : Value) :
    Screens (raw.cellType.isText || raw.cellType.isNumeric) field raw
      (readNumber field expected raw) := by
  cases raw with
  | int | bigInt | varInt | float | double => exact .of_ok
  | boolean | blob => exact .of_mismatch
  | decimal text | text text =>
    rw [readNumber]
    cases Binary.ofText? (Text.trim text) with
    | some x => exact .of_ok
    | none => exact .of_unreadable rfl rfl

theorem screens_readBoolean (field : String) (raw : Value) :
    Screens (raw.cellType.isText || raw.cellType = .boolean) field raw (readBoolean field raw) := by
  cases raw with
  | boolean => exact .of_ok
  | int | bigInt | varInt | float | double | decimal | blob => exact .of_mismatch
  | text text =>
    simp only [readBoolean]
    split
    · exact .of_ok
    · split
      · exact .of_ok
      · exact .of_unreadable rfl rfl

theorem screens_readBytes (field : String) (raw : Value) :
    Screens (raw.cellType.isText || raw.cellType = .blob) field raw (readBytes field raw) := by
  cases raw with
  | blob => exact .of_ok
  | int | bigInt | varInt | float | double | decimal | boolean => exact .of_mismatch
  | text text =>
    unfold readBytes
    dsimp only
    cases Hex.decode (String.ofList (dropHexMark (Text.trim text).toList)) with
    | ok bytes => exact .of_ok
    | error reason => exact .of_unreadable rfl rfl

/-- **A mapper reads exactly the values of the types that it accepts.** -/
theorem screens_coerce (m : Mapper) (field : String) (raw : Value) :
    Screens (m.accepts raw.cellType) field raw (m.coerce field raw) := by
  obtain ⟨type, boost⟩ := m
  cases type with
  | integer | long | float | double => exact (screens_readNumber field _ raw).map _
  | boolean => exact (screens_readBoolean field raw).map _
  | blob => exact (screens_readBytes field raw).map _
  | string =>
    cases raw with
    | blob => exact .of_mismatch
    | int | bigInt | varInt | float | double | decimal | text | boolean => exact .of_ok
  | text =>
    cases raw with
    | text => exact .of_ok
    | int | bigInt | varInt | float | double | decimal | boolean | blob => exact .of_mismatch

end Mapper

/-- An error that affects one row alone and names one field: the value of that field was refused. -/
structure Error.Refuses (e : Error) (field : String) : Prop where
  rowScoped : e.isRowScoped = true
  field : e.field? = some field

/-- **A mapper fails only by refusing the value of its own field.** -/
theorem Mapper.refuses_coerce {m : Mapper} {field : String} {raw : Value} {e : Error}
    (h : m.coerce field raw = .error e) : e.Refuses field := by
  rcases (m.screens_coerce field raw).eq_or_kind_eq h with rfl | ⟨hkind, hfield⟩
  · exact ⟨rfl, rfl⟩
  · exact ⟨by rw [Error.isRowScoped, hkind], hfield⟩

end RowIndex
