import RowIndex.Proofs.Index.Bindings

/-!
# Proofs/Index/Reopening — which declarations an existing layout accepts

A layout knows the form of a field and not its kind.  The forms made for two kinds are told apart
unless both kinds are text (`suits_ofKind_iff`), so a declaration is accepted exactly if the layout
was made for a field of its name, of the same kind or with text on both sides
(`bind_ofSpecs`).  An accepted field keeps the form it was made with, whatever kind it is declared
with now.
-/

namespace RowIndex

namespace FieldKind

/-- Whether values of the kind are text. -/
def isTextual : FieldKind → Bool
  | long | double => false
  | keyword | text => true

/-- Whether fields of two kinds are held in forms that are not told apart. -/
def SharesForm (a b : FieldKind) : Prop := a = b ∨ a.isTextual = true ∧ b.isTextual = true

instance (a b : FieldKind) : Decidable (SharesForm a b) :=
  inferInstanceAs (Decidable (_ ∨ _))

/-- **The form made for one kind suits those kinds that it is not told apart from.** -/
theorem suits_ofKind_iff {a b : FieldKind} :
    (FieldForm.ofKind a).suits b = true ↔ a.SharesForm b := by
  cases a <;> cases b <;> decide

end FieldKind

namespace Layout

variable {made declared : List FieldSpec}

/-- A declaration is bound to the field of its name, if that shares a form with it. -/
theorem bindField_ofList (made : List FieldSpec) (spec : FieldSpec) :
    bindField (.ofList (made.map FieldSpec.layout)) spec =
      match (NameMap.ofList made).find? spec.name with
      | none => .error (.absentField spec.name)
      | some old =>
        if old.kind.SharesForm spec.kind then .ok ⟨spec.kind, old.layout⟩
        else .error (.differentField spec.name spec.kind) := by
  rw [bindField, NameMap.find?_ofList_map (f := FieldSpec.layout) fun _ => rfl]
  cases (NameMap.ofList made).find? spec.name with
  | none => rfl
  | some old => exact ite_congr (propext FieldKind.suits_ofKind_iff) (fun _ => rfl) fun _ => rfl

section

variable (hnames : (made.map FieldSpec.name).Nodup)

include hnames

theorem bindField_eq_ok_iff {spec : FieldSpec} {bound : BoundField} :
    bindField (.ofList (made.map FieldSpec.layout)) spec = .ok bound ↔
      ∃ old ∈ made, old.name = spec.name ∧ old.kind.SharesForm spec.kind ∧
        ⟨spec.kind, old.layout⟩ = bound := by
  rw [exists_declared_iff hnames, bindField_ofList]
  cases (NameMap.ofList made).find? spec.name with
  | none => simp
  | some old => by_cases h : old.kind.SharesForm spec.kind <;> simp [h]

/-- A declaration is refused for want of a field, or for the form of the field. -/
theorem bindField_eq_error_iff {spec : FieldSpec} {e : Error} :
    bindField (.ofList (made.map FieldSpec.layout)) spec = .error e ↔
      ((∀ old ∈ made, old.name ≠ spec.name) ∧ .absentField spec.name = e) ∨
      ∃ old ∈ made, old.name = spec.name ∧ ¬old.kind.SharesForm spec.kind ∧
        .differentField spec.name spec.kind = e := by
  rw [← find?_ofList_eq_none_iff hnames, exists_declared_iff hnames, bindField_ofList]
  cases (NameMap.ofList made).find? spec.name with
  | none => simp
  | some old => by_cases h : old.kind.SharesForm spec.kind <;> simp [h]

/-- A list of declarations is bound if each of them is. -/
theorem exists_bind_iff :
    (∃ b, bind (.ofList (made.map FieldSpec.layout)) declared = .ok b) ↔
      ∀ spec ∈ declared, ∃ old ∈ made, old.name = spec.name ∧ old.kind.SharesForm spec.kind := by
  have hmap : (∃ b, bind (.ofList (made.map FieldSpec.layout)) declared = .ok b) ↔
      ∃ fields, declared.mapM (bindField (.ofList (made.map FieldSpec.layout))) = .ok fields := by
    simp only [bind, map_eq_ok_iff]
    exact ⟨fun ⟨_, fields, h, _⟩ => ⟨fields, h⟩, fun ⟨fields, h⟩ => ⟨_, fields, h, rfl⟩⟩
  rw [hmap, exists_mapM_iff]
  refine forall₂_congr fun spec _ => ?_
  simp only [bindField_eq_ok_iff hnames]
  exact ⟨fun ⟨_, old, hold, hname, hshares, _⟩ => ⟨old, hold, hname, hshares⟩,
    fun ⟨old, hold, hname, hshares⟩ => ⟨_, old, hold, hname, hshares, rfl⟩⟩

/-- A list of declarations is refused for one that names no field, or a field of another form. -/
theorem exists_refused {e : Error}
    (h : bind (.ofList (made.map FieldSpec.layout)) declared = .error e) :
    ∃ spec ∈ declared,
      ((∀ old ∈ made, old.name ≠ spec.name) ∧ .absentField spec.name = e) ∨
      ∃ old ∈ made, old.name = spec.name ∧ ¬old.kind.SharesForm spec.kind ∧
        .differentField spec.name spec.kind = e := by
  obtain ⟨before, spec, after, rfl, -, he⟩ := mapM_eq_error_iff.mp (map_eq_error_iff.mp h)
  exact ⟨spec, by simp, (bindField_eq_error_iff hnames).mp he⟩

/-- A bound field is held as it was made, and has the kind that it is declared with now. -/
theorem find?_of_bind {b : Bindings}
    (h : bind (.ofList (made.map FieldSpec.layout)) declared = .ok b) {name : String}
    {bound : BoundField} (hbound : b.find? name = some bound) :
    ∃ old ∈ made, ∃ spec ∈ declared, old.name = name ∧ spec.name = name ∧
      old.kind.SharesForm spec.kind ∧ bound = ⟨spec.kind, old.layout⟩ := by
  obtain ⟨fields, hfields, rfl⟩ := map_eq_ok_iff.mp h
  obtain ⟨hmem, hname⟩ := NameMap.find?_eq_some_iff.mp hbound
  obtain ⟨spec, hspec, hbind⟩ := exists_of_mem_mapM hfields (NameMap.mem_of_mem_ofList hmem)
  obtain ⟨old, hold, heq, hshares, rfl⟩ := (bindField_eq_ok_iff hnames).mp hbind
  exact ⟨old, hold, spec, hspec, hname, heq.symm.trans hname, hshares, rfl⟩

end

/-- **An existing layout accepts declarations up to the difference of keywords and texts.**  The
layout of declarations with distinct names is made, and it accepts others exactly if each names a
field whose form it shares; what is refused is refused for a missing field or a different form, and
what is accepted keeps the form it was made with.  Where no text turns into a keyword or a keyword
into text, only fields of the same kind are accepted. -/
theorem bind_ofSpecs (hnames : (made.map FieldSpec.name).Nodup) (declared : List FieldSpec) :
    ∃ layout, ofSpecs made = .ok layout ∧
      ((∃ b, layout.bind declared = .ok b) ↔
        ∀ spec ∈ declared, ∃ old ∈ made, old.name = spec.name ∧ old.kind.SharesForm spec.kind) ∧
      (∀ e, layout.bind declared = .error e → ∃ spec ∈ declared,
        ((∀ old ∈ made, old.name ≠ spec.name) ∧ .absentField spec.name = e) ∨
        ∃ old ∈ made, old.name = spec.name ∧ ¬old.kind.SharesForm spec.kind ∧
          .differentField spec.name spec.kind = e) ∧
      (∀ b, layout.bind declared = .ok b → ∀ name bound, b.find? name = some bound →
        ∃ old ∈ made, ∃ spec ∈ declared, old.name = name ∧ spec.name = name ∧
          old.kind.SharesForm spec.kind ∧ bound = ⟨spec.kind, old.layout⟩) ∧
      ((∀ old ∈ made, ∀ spec ∈ declared, old.name = spec.name → old.kind.isTextual = true →
          spec.kind.isTextual = true → old.kind = spec.kind) →
        ((∃ b, layout.bind declared = .ok b) ↔
          ∀ spec ∈ declared, ∃ old ∈ made, old.name = spec.name ∧ old.kind = spec.kind)) := by
  refine ⟨_, map_eq_ok_iff.mpr ⟨_, Declarations.ofList_eq_ok_iff.mpr ⟨hnames, rfl⟩, rfl⟩,
    exists_bind_iff hnames, fun e => exists_refused hnames,
    fun b hb name bound => find?_of_bind hnames hb, fun hkinds => ?_⟩
  rw [exists_bind_iff hnames]
  refine forall₂_congr fun spec hspec => exists_congr fun old =>
    and_congr_right fun hold => and_congr_right fun hname => ⟨?_, Or.inl⟩
  rintro (hkind | ⟨hold', hspec'⟩)
  · exact hkind
  · exact hkinds old hold spec hspec hname hold' hspec'

/-- A field of integers is not accepted as one of floating-point numbers, beside one that is. -/
theorem bind_ofSpecs_of_other_number :
    let made : List FieldSpec := [⟨"city", .keyword, true, true⟩, ⟨"year", .long, false, true⟩]
    let declared : List FieldSpec :=
      [⟨"city", .keyword, false, false⟩, ⟨"year", .double, true, false⟩]
    (made.map FieldSpec.name).Nodup ∧
      ∃ layout, ofSpecs made = .ok layout ∧ ¬∃ b, layout.bind declared = .ok b := by
  intro made declared
  have hnames : (made.map FieldSpec.name).Nodup := by decide
  obtain ⟨layout, hlayout, -, -, -, hkinds⟩ := bind_ofSpecs hnames declared
  refine ⟨hnames, layout, hlayout, ?_⟩
  rw [hkinds (by decide)]
  decide

/-- **A keyword is accepted as text**, and stays a single token. -/
theorem bind_keyword_as_text :
    let made : List FieldSpec := [⟨"city", .keyword, false, false⟩]
    let declared : List FieldSpec := [⟨"city", .text, false, false⟩]
    ∃ layout b, ofSpecs made = .ok layout ∧ layout.bind declared = .ok b ∧
      b.find? "city" = some ⟨.text, ⟨"city", .whole, false, false⟩⟩ ∧
      ¬∀ spec ∈ declared, ∃ old ∈ made, old.name = spec.name ∧ old.kind = spec.kind :=
  ⟨_, _, rfl, rfl, by decide, by decide⟩

end Layout

end RowIndex
