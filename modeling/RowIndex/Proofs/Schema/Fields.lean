import RowIndex.Proofs.Row.Cells
import RowIndex.Proofs.Schema.Readings
import RowIndex.Schema

/-!
# Proofs/Schema/Fields — the fields that a schema adds

A schema adds a field for each of its mappers whose column and cell are there (`map_name_added`),
under the names of its mappers only (`fieldsOf_spec`), none of them twice (`nodup_names_added`), so
that a mapped field has the value of its own cell (`mem_values_of_addFields`).  A cell that has no
mapper or no column adds nothing (`addFields_withCell`).  In a schema that validates no name is
empty or reserved (`usable_of_validate`).
-/

namespace RowIndex

namespace Schema

/-- A row supplies a mapped field if the table has a column and the row a cell of its name. -/
def supplies (t : Table) (r : Row) (name : String) : Bool :=
  (t.column? name).isSome && (r.value? name).isSome

/-- What one mapper gives is the value that it reads in the cell of its name, or nothing where none
is supplied. -/
theorem fieldsOf_eq_ok_iff {t : Table} {r : Row} {f : MappedField} {added : List Field} :
    fieldsOf t r f = .ok added ↔
      supplies t r f.name = false ∧ added = [] ∨
        ∃ raw v, (t.column? f.name).isSome = true ∧ r.value? f.name = some raw ∧
          f.mapper.coerce f.name raw = .ok v ∧ added = [⟨f.name, v⟩] := by
  rw [fieldsOf, supplies]
  cases t.column? f.name with
  | none => simp [eq_comm]
  | some column =>
    cases r.value? f.name with
    | none => simp [eq_comm]
    | some raw => simp [map_eq_ok_iff, Mapper.fields, eq_comm (b := added)]

/-- A row gives one mapper at most one field, of the mapper's name and kind. -/
theorem fieldsOf_spec {t : Table} {r : Row} {f : MappedField} {added : List Field}
    (h : fieldsOf t r f = .ok added) :
    added = [] ∨ ∃ v, added = [⟨f.name, v⟩] ∧ v.kind = f.mapper.kind := by
  rcases fieldsOf_eq_ok_iff.mp h with ⟨-, rfl⟩ | ⟨raw, v, -, -, hv, rfl⟩
  · exact Or.inl rfl
  · exact Or.inr ⟨v, rfl, Mapper.kind_coerce hv⟩

/-- What is added for a row is the concatenation of what its mappers give. -/
theorem addFields_eq_ok_iff {s : Schema} {d d' : Document} {t : Table} {r : Row} :
    s.addFields d t r = .ok d' ↔
      ∃ added, s.fields.entries.mapM (fieldsOf t r) = .ok added ∧ d.append added.flatten = d' :=
  map_eq_ok_iff

/-- Every added field has the name and the kind of a mapper. -/
theorem mem_added {s : Schema} {t : Table} {r : Row} {added : List (List Field)}
    (h : s.fields.entries.mapM (fieldsOf t r) = .ok added) {g : Field} (hg : g ∈ added.flatten) :
    ∃ f ∈ s.fields.entries, g.name = f.name ∧ g.value.kind = f.mapper.kind := by
  obtain ⟨fields, hfields, hmem⟩ := List.mem_flatten.mp hg
  obtain ⟨f, hf, hok⟩ := exists_of_mem_mapM h hfields
  rcases fieldsOf_spec hok with rfl | ⟨v, rfl, hv⟩
  · exact (List.not_mem_nil hmem).elim
  · rw [List.mem_singleton.mp hmem]
    exact ⟨f, hf, rfl, hv⟩

/-- **The fields that are added are those that the row supplies**, in the order of their mappers. -/
theorem map_name_added {t : Table} {r : Row} {fields : List MappedField}
    {added : List (List Field)} (h : fields.mapM (fieldsOf t r) = .ok added) :
    added.flatten.map Field.name = (fields.map MappedField.name).filter (supplies t r) := by
  induction fields generalizing added with
  | nil =>
    rw [List.map_eq_nil_iff.mp (mapM_eq_ok_iff.mp h).symm]
    rfl
  | cons f fields ih =>
    obtain ⟨first, rest, rfl, hfirst, hrest⟩ := List.map_eq_cons_iff.mp (mapM_eq_ok_iff.mp h).symm
    have htail := ih (mapM_eq_ok_iff.mpr hrest.symm)
    rw [List.flatten_cons, List.map_append, List.map_cons, htail]
    rcases fieldsOf_eq_ok_iff.mp hfirst.symm with ⟨hno, rfl⟩ | ⟨raw, v, hcolumn, hraw, -, rfl⟩
    · rw [List.filter_cons_of_neg (by rw [hno]; exact Bool.false_ne_true)]
      rfl
    · rw [List.filter_cons_of_pos (by rw [supplies, hcolumn, hraw]; rfl)]
      rfl

/-- The added fields stand in the order of their mappers. -/
theorem sublist_names_added {t : Table} {r : Row} {fields : List MappedField}
    {added : List (List Field)} (h : fields.mapM (fieldsOf t r) = .ok added) :
    (added.flatten.map Field.name).Sublist (fields.map MappedField.name) := by
  rw [map_name_added h]
  exact List.filter_sublist

/-- **No name is added twice.** -/
theorem nodup_names_added {s : Schema} {t : Table} {r : Row} {added : List (List Field)}
    (h : s.fields.entries.mapM (fieldsOf t r) = .ok added) :
    (added.flatten.map Field.name).Nodup :=
  s.fields.nodup_names.sublist (sublist_names_added h)

/-- What is added under a name is what the mapper of that name gives. -/
theorem filter_added {t : Table} {r : Row} {fields : List MappedField} {added : List (List Field)}
    (hnodup : (fields.map MappedField.name).Nodup) (h : fields.mapM (fieldsOf t r) = .ok added)
    {f : MappedField} (hf : f ∈ fields) :
    fieldsOf t r f = .ok (added.flatten.filter (·.name == f.name)) := by
  induction fields generalizing added with
  | nil => exact (List.not_mem_nil hf).elim
  | cons g rest ih =>
    obtain ⟨first, others, rfl, hfirst, hothers⟩ :=
      List.map_eq_cons_iff.mp (mapM_eq_ok_iff.mp h).symm
    have hothers := mapM_eq_ok_iff.mpr hothers.symm
    obtain ⟨hg, hrest⟩ := List.nodup_cons.mp hnodup
    rw [List.flatten_cons, List.filter_append]
    have hnames : ∀ x ∈ first, x.name = g.name := by
      rcases fieldsOf_spec hfirst.symm with rfl | ⟨v, rfl, -⟩
      · exact fun x hx => (List.not_mem_nil hx).elim
      · exact fun x hx => by rw [List.mem_singleton.mp hx]
    have hlater : ∀ x ∈ others.flatten, x.name ∈ rest.map MappedField.name := fun x hx =>
      (sublist_names_added hothers).subset (List.mem_map_of_mem hx)
    rcases List.mem_cons.mp hf with rfl | hf
    · rw [List.filter_eq_self.mpr, List.filter_eq_nil_iff.mpr, List.append_nil, hfirst]
      · intro x hx heq
        exact hg (beq_iff_eq.mp heq ▸ hlater x hx)
      · exact fun x hx => beq_iff_eq.mpr (hnames x hx)
    · rw [List.filter_eq_nil_iff.mpr, List.nil_append, ih hrest hothers hf]
      intro x hx heq
      exact hg (hnames x hx ▸ beq_iff_eq.mp heq ▸ List.mem_map_of_mem hf)

/-- **The values of a mapped field are those that its mapper gives.** -/
theorem exists_values_of_addFields {s : Schema} {t : Table} {r : Row} {d d' : Document}
    (h : s.addFields d t r = .ok d') {field : String} {m : Mapper} (hm : s.mapper? field = some m) :
    ∃ own, fieldsOf t r ⟨field, m⟩ = .ok own ∧
      d'.values field = d.values field ++ own.map Field.value := by
  obtain ⟨added, hadded, rfl⟩ := addFields_eq_ok_iff.mp h
  obtain ⟨⟨_, _⟩, hfind, rfl⟩ := Option.map_eq_some_iff.mp hm
  obtain ⟨hmem, rfl⟩ := NameMap.find?_eq_some_iff.mp hfind
  refine ⟨_, filter_added s.fields.nodup_names hadded hmem, ?_⟩
  rw [Document.append, Document.values, List.filter_append, List.map_append]
  rfl

/-- **A mapped field of a row has the value that its mapper reads in the cell of its name**, if the
table has such a column and the row such a cell, and no other. -/
theorem mem_values_of_addFields {s : Schema} {t : Table} {r : Row} {d d' : Document}
    (h : s.addFields d t r = .ok d') {field : String} {m : Mapper} (hm : s.mapper? field = some m)
    (hnew : d.values field = []) {v : FieldValue} :
    v ∈ d'.values field ↔ (t.column? field).isSome = true ∧
      ∃ raw, r.value? field = some raw ∧ m.coerce field raw = .ok v := by
  obtain ⟨own, hown, hvalues⟩ := exists_values_of_addFields h hm
  rw [hvalues, hnew, List.nil_append]
  rcases fieldsOf_eq_ok_iff.mp hown with ⟨hno, rfl⟩ | ⟨raw, w, hcolumn, hraw, hw, rfl⟩
  · refine iff_of_false List.not_mem_nil ?_
    rintro ⟨hcolumn, raw, hraw, -⟩
    rw [supplies, hcolumn, hraw] at hno
    exact Bool.false_ne_true hno.symm
  · simp [hcolumn, hraw, hw, eq_comm]

theorem fieldsOf_eq_error_iff {t : Table} {r : Row} {f : MappedField} {e : Error} :
    fieldsOf t r f = .error e ↔
      ∃ raw, (t.column? f.name).isSome = true ∧ r.value? f.name = some raw ∧
        f.mapper.coerce f.name raw = .error e := by
  rw [fieldsOf]
  cases t.column? f.name with
  | none => simp
  | some column => cases r.value? f.name <;> simp [map_eq_error_iff]

/-- A schema adds no fields because of the first of its mappers, in name order, that refuses its
value. -/
theorem addFields_eq_error_iff {s : Schema} {d : Document} {t : Table} {r : Row} {e : Error} :
    s.addFields d t r = .error e ↔
      ∃ before f after, s.fields.entries = before ++ f :: after ∧
        (∀ g ∈ before, ∃ fields, fieldsOf t r g = .ok fields) ∧ fieldsOf t r f = .error e := by
  rw [addFields, map_eq_error_iff, mapM_eq_error_iff]

/-- **A cell without a mapper or without a column adds nothing.** -/
theorem addFields_withCell {s : Schema} {t : Table} {c : Cell}
    (hc : s.mapper? c.name = none ∨ t.column? c.name = none) (d : Document) (r : Row) :
    s.addFields d t (r.withCell c) = s.addFields d t r := by
  have hfields : ∀ f ∈ s.fields.entries, fieldsOf t (r.withCell c) f = fieldsOf t r f := by
    intro f hf
    rw [fieldsOf, fieldsOf]
    by_cases hname : f.name = c.name
    · rcases hc with hc | hc
      · have hnone := NameMap.find?_eq_none_iff.mp (Option.map_eq_none_iff.mp hc)
        exact (hnone f hf hname).elim
      · rw [hname, hc]
        rfl
    · rw [Row.value?_withCell_of_ne hname]
  rw [addFields, addFields, mapM_congr hfields]

theorem checkField_eq_ok_iff {t : Table} {f : MappedField} :
    checkField t f = .ok () ↔ f.name ≠ "" ∧ f.name ∉ reservedFields ∧
      ∀ column, t.column? f.name = some column → f.mapper.accepts column.type = true := by
  rw [checkField]
  split
  · simp [*]
  · split
    · simp [*]
    · cases t.column? f.name with
      | none => simp [*]
      | some column => by_cases h : f.mapper.accepts column.type = true <;> simp [*]

/-- **In a schema that validates, no name is empty or reserved.** -/
theorem usable_of_validate {s : Schema} {t : Table} (h : s.validate t = .ok ())
    {f : MappedField} (hf : f ∈ s.fields.entries) : f.name ≠ "" ∧ f.name ∉ reservedFields := by
  obtain ⟨hne, hnot, -⟩ := checkField_eq_ok_iff.mp (forM_eq_ok_iff.mp h f hf)
  exact ⟨hne, hnot⟩

end Schema

end RowIndex
