import RowIndex.Index.Basic
import RowIndex.Proofs.Outcomes

/-!
# Proofs/Index/Declarations — declared fields are found under their names

A list of declarations is accepted exactly if no name repeats (`ofList_eq_ok_iff`), and then every
declaration is found under its name, and nothing else is (`find?_ofList_iff`).  A document passes
the check exactly if every field is declared with the kind of its value (`check_eq_ok_iff`).
-/

namespace RowIndex

namespace NameMap

variable {α : Type} [Named α]

/-- Entries put in later leave other names alone. -/
theorem find?_foldl_put_of_forall_ne {name : String} :
    ∀ {l : List α} (m : NameMap α), (∀ a ∈ l, Named.name a ≠ name) →
      (l.foldl put m).find? name = m.find? name
  | [], _, _ => rfl
  | a :: l, m, h => by
    obtain ⟨ha, hl⟩ := List.forall_mem_cons.mp h
    rw [List.foldl_cons, find?_foldl_put_of_forall_ne _ hl, find?_put, if_neg (Ne.symm ha)]

theorem find?_put_eq_none_iff {m : NameMap α} {a : α} {name : String} :
    (m.put a).find? name = none ↔ name ≠ Named.name a ∧ m.find? name = none := by
  rw [find?_put]
  split <;> simp [*]

/-- Of entries with different names, every one is found. -/
theorem find?_foldl_put_of_mem :
    ∀ {l : List α} (m : NameMap α) {a : α}, (l.map Named.name).Nodup → a ∈ l →
      (l.foldl put m).find? (Named.name a) = some a
  | b :: l, m, a, hnodup, ha => by
    obtain ⟨hb, hl⟩ := List.nodup_cons.mp hnodup
    rw [List.foldl_cons]
    rcases List.mem_cons.mp ha with rfl | ha
    · have hne : ∀ e ∈ l, Named.name e ≠ Named.name a := fun e he heq =>
        hb (heq ▸ List.mem_map_of_mem he)
      rw [find?_foldl_put_of_forall_ne _ hne, find?_put, if_pos rfl]
    · exact find?_foldl_put_of_mem _ hl ha

/-- Putting entries in invents none. -/
theorem mem_of_mem_foldl_put :
    ∀ {l : List α} {m : NameMap α} {a : α}, a ∈ (l.foldl put m).entries → a ∈ l ∨ a ∈ m.entries
  | [], _, _, h => Or.inr h
  | b :: l, m, a, h => by
    rcases mem_of_mem_foldl_put (l := l) h with h | h
    · exact Or.inl (List.mem_cons_of_mem _ h)
    · rcases mem_of_mem_place h with rfl | h
      · exact Or.inl List.mem_cons_self
      · exact Or.inr h

theorem mem_of_mem_ofList {l : List α} {a : α} (h : a ∈ (ofList l).entries) : a ∈ l :=
  (mem_of_mem_foldl_put h).resolve_right fun h => List.not_mem_nil h

/-- Names put into a set are its members, beside those that were there. -/
theorem mem_foldl_put_names {name : String} :
    ∀ {l : List String} {m : NameSet},
      name ∈ (l.foldl put m).entries ↔ name ∈ l ∨ name ∈ m.entries
  | [], _ => by simp
  | other :: l, m => by
    have hput : name ∈ (m.put other).entries ↔ name = other ∨ name ∈ m.entries := by
      rw [mem_iff_find?, mem_iff_find? (m := m), find?_put]
      by_cases h : name = other
      · subst h
        simp
      · simp [h, Named.name]
    rw [List.foldl_cons, mem_foldl_put_names, hput, List.mem_cons, or_left_comm, or_assoc]

end NameMap

/-- With distinct names, every declaration is found, and nothing else is. -/
theorem find?_ofList_iff {specs : List FieldSpec} (hnames : (specs.map FieldSpec.name).Nodup)
    {name : String} {spec : FieldSpec} :
    (NameMap.ofList specs).find? name = some spec ↔ spec ∈ specs ∧ spec.name = name := by
  constructor
  · intro h
    obtain ⟨hmem, hname⟩ := NameMap.find?_eq_some_iff.mp h
    exact ⟨NameMap.mem_of_mem_ofList hmem, hname⟩
  · rintro ⟨hmem, rfl⟩
    exact NameMap.find?_foldl_put_of_mem _ hnames hmem

/-- A declaration with a name is the one that is found by it. -/
theorem exists_declared_iff {specs : List FieldSpec} (hnames : (specs.map FieldSpec.name).Nodup)
    {name : String} {P : FieldSpec → Prop} :
    (∃ spec ∈ specs, spec.name = name ∧ P spec) ↔
      ∃ spec, (NameMap.ofList specs).find? name = some spec ∧ P spec := by
  simp only [find?_ofList_iff hnames, and_assoc]

/-- Nothing is found by a name without a declaration. -/
theorem find?_ofList_eq_none_iff {specs : List FieldSpec}
    (hnames : (specs.map FieldSpec.name).Nodup) {name : String} :
    (NameMap.ofList specs).find? name = none ↔ ∀ spec ∈ specs, spec.name ≠ name := by
  simp only [Option.eq_none_iff_forall_ne_some, ne_eq, find?_ofList_iff hnames, not_and]

namespace Declarations

/-- One more declaration is accepted if its name is new. -/
theorem declare_eq_ok_iff {declared result : Declarations} {spec : FieldSpec} :
    (if declared.contains spec.name then (.error (.duplicateField spec.name) : Except Error _)
      else .ok (declared.put spec)) = .ok result ↔
      declared.find? spec.name = none ∧ result = declared.put spec := by
  rw [NameMap.contains]
  cases declared.find? spec.name with
  | none => simp [eq_comm]
  | some old => simp

/-- Declarations are accepted one after another if their names differ and all are new. -/
theorem foldlM_eq_ok_iff {specs : List FieldSpec} {declared result : Declarations} :
    specs.foldlM (fun declared spec =>
        if declared.contains spec.name then .error (.duplicateField spec.name)
        else .ok (declared.put spec)) declared = (.ok result : Except Error Declarations) ↔
      (specs.map FieldSpec.name).Nodup ∧ (∀ spec ∈ specs, declared.find? spec.name = none) ∧
        result = specs.foldl NameMap.put declared := by
  induction specs generalizing declared with
  | nil =>
    rw [List.foldlM_nil]
    constructor
    · intro h
      exact ⟨List.nodup_nil, fun _ h => (List.not_mem_nil h).elim, (Except.ok.inj h).symm⟩
    · rintro ⟨-, -, rfl⟩
      rfl
  | cons spec specs ih =>
    have hput (other : FieldSpec) : (declared.put spec).find? other.name = none ↔
        other.name ≠ spec.name ∧ declared.find? other.name = none :=
      NameMap.find?_put_eq_none_iff
    simp only [List.foldlM_cons, bind_eq_ok_iff, declare_eq_ok_iff, List.map_cons,
      List.nodup_cons, List.forall_mem_cons, List.foldl_cons, List.mem_map]
    constructor
    · rintro ⟨_, ⟨hnew, rfl⟩, h⟩
      obtain ⟨hnodup, hnone, rfl⟩ := ih.mp h
      have hold : ∀ other ∈ specs, other.name ≠ spec.name ∧ declared.find? other.name = none :=
        fun other ho => (hput other).mp (hnone other ho)
      refine ⟨⟨?_, hnodup⟩, ⟨hnew, fun other ho => (hold other ho).2⟩, rfl⟩
      rintro ⟨other, ho, heq⟩
      exact (hold other ho).1 heq
    · rintro ⟨⟨hnot, hnodup⟩, ⟨hnew, hnone⟩, rfl⟩
      refine ⟨_, ⟨hnew, rfl⟩, ih.mpr ⟨hnodup, fun other ho => (hput other).mpr ?_, rfl⟩⟩
      exact ⟨fun heq => hnot ⟨other, ho, heq⟩, hnone other ho⟩

/-- **A list of declarations is accepted exactly if no name repeats.** -/
theorem ofList_eq_ok_iff {specs : List FieldSpec} {declared : Declarations} :
    ofList specs = .ok declared ↔
      (specs.map FieldSpec.name).Nodup ∧ declared = NameMap.ofList specs := by
  rw [ofList, foldlM_eq_ok_iff]
  exact ⟨fun ⟨hnodup, _, h⟩ => ⟨hnodup, h⟩, fun ⟨hnodup, h⟩ => ⟨hnodup, fun _ _ => rfl, h⟩⟩

/-- Every accepted declaration is found under its name. -/
theorem find?_of_ofList {specs : List FieldSpec} {declared : Declarations}
    (h : ofList specs = .ok declared) {spec : FieldSpec} (hspec : spec ∈ specs) :
    declared.find? spec.name = some spec := by
  obtain ⟨hnodup, rfl⟩ := ofList_eq_ok_iff.mp h
  exact (find?_ofList_iff hnodup).mpr ⟨hspec, rfl⟩

/-- Every declaration that is found is one of the list. -/
theorem mem_of_find?_ofList {specs : List FieldSpec} {declared : Declarations}
    (h : ofList specs = .ok declared) {name : String} {spec : FieldSpec}
    (hspec : declared.find? name = some spec) : spec ∈ specs ∧ spec.name = name := by
  obtain ⟨hnodup, rfl⟩ := ofList_eq_ok_iff.mp h
  exact (find?_ofList_iff hnodup).mp hspec

/-- What holds of some declaration of a name holds of the one that is found under it. -/
theorem any_find? {specs : List FieldSpec} {declared : Declarations}
    (h : ofList specs = .ok declared) (p : FieldSpec → Bool) (name : String) :
    (declared.find? name).any p = specs.any fun spec => spec.name == name && p spec := by
  rw [Bool.eq_iff_iff, Option.any_eq_true, List.any_eq_true]
  constructor
  · rintro ⟨spec, hspec, hp⟩
    obtain ⟨hmem, hname⟩ := mem_of_find?_ofList h hspec
    exact ⟨spec, hmem, by simp [hname, hp]⟩
  · rintro ⟨spec, hmem, hspec⟩
    obtain ⟨hname, hp⟩ := Bool.and_eq_true_iff.mp hspec
    exact ⟨spec, beq_iff_eq.mp hname ▸ find?_of_ofList h hmem, hp⟩

theorem checkField_eq_ok_iff {declared : Declarations} {f : Field} :
    declared.checkField f = .ok () ↔
      ∃ spec, declared.find? f.name = some spec ∧ spec.kind = f.value.kind := by
  rw [checkField]
  cases declared.find? f.name with
  | none => simp
  | some spec => by_cases h : spec.kind = f.value.kind <;> simp [h]

/-- **A document passes if every field is declared with the kind of its value.** -/
theorem check_eq_ok_iff {declared : Declarations} {d : Document} :
    declared.check d = .ok () ↔
      ∀ f ∈ d.fields, ∃ spec, declared.find? f.name = some spec ∧ spec.kind = f.value.kind := by
  simp only [check, forM_eq_ok_iff, checkField_eq_ok_iff]

end Declarations

end RowIndex
