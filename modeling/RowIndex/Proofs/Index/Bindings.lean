import RowIndex.Index.Plan
import RowIndex.Proofs.Index.Declarations

/-!
# Proofs/Index/Bindings — declared fields in the inverted index

A layout that is made for a list of declarations suits them, when it is made and when the index is
opened again (`build_eq_ok_iff`, `bind_ofList`).  So the inverted index knows the fields that are
declared, and no others (`serve_ofList`).  Any other layout that accepts declarations holds them in
forms of its own, but they keep their kinds (`knows_bind`).
-/

namespace RowIndex

/-- Entries of a map are found after a change that keeps their names. -/
theorem NameMap.find?_ofList_map {α β : Type} [Named α] [Named β] {f : α → β}
    (hf : ∀ a, Named.name (f a) = Named.name a) (l : List α) (name : String) :
    (ofList (l.map f)).find? name = ((ofList l).find? name).map f := by
  have hfoldl (m : NameMap α) (n : NameMap β)
      (h : ∀ name, n.find? name = (m.find? name).map f) :
      ((l.map f).foldl put n).find? name = ((l.foldl put m).find? name).map f := by
    induction l generalizing m n with
    | nil => exact h name
    | cons a l ih =>
      refine ih (m.put a) (n.put (f a)) fun name => ?_
      rw [find?_put, find?_put, hf, h]
      split <;> rfl
  exact hfoldl empty empty fun _ => rfl

/-- A declared field in the layout that is made for it. -/
def FieldSpec.bound (spec : FieldSpec) : BoundField := ⟨spec.kind, spec.layout⟩

namespace Layout

/-- **A layout suits the declarations that it was made for.** -/
theorem bind_ofList {specs : List FieldSpec} (h : (specs.map FieldSpec.name).Nodup) :
    bind (.ofList (specs.map FieldSpec.layout)) specs =
      .ok (.ofList (specs.map FieldSpec.bound)) := by
  refine map_eq_ok_iff.mpr ⟨_, mapM_eq_ok_iff.mpr ?_, rfl⟩
  rw [List.map_map]
  refine List.map_congr_left fun spec hspec => ?_
  have hnames : ((specs.map FieldSpec.layout).map Named.name).Nodup := by
    rw [List.map_map]
    exact h
  have hheld : (NameMap.ofList (specs.map FieldSpec.layout)).find? spec.name = some spec.layout :=
    NameMap.find?_foldl_put_of_mem _ hnames (List.mem_map_of_mem hspec)
  have hsuits : spec.layout.form.suits spec.kind = true := by
    rw [FieldSpec.layout]
    cases spec.kind <;> rfl
  rw [bindField, hheld]
  exact if_pos hsuits

/-- **A layout is made for declarations whose names differ.** -/
theorem build_eq_ok_iff {specs : List FieldSpec} {layout : Layout} {bindings : Bindings} :
    build specs = .ok (layout, bindings) ↔
      (specs.map FieldSpec.name).Nodup ∧ layout = .ofList (specs.map FieldSpec.layout) ∧
        bindings = .ofList (specs.map FieldSpec.bound) := by
  simp only [build, bind_eq_ok_iff, ofSpecs, map_eq_ok_iff, Declarations.ofList_eq_ok_iff]
  constructor
  · rintro ⟨_, ⟨_, ⟨hnodup, -⟩, rfl⟩, _, hbind, h⟩
    rw [bind_ofList hnodup] at hbind
    obtain ⟨rfl, rfl⟩ := Prod.mk.inj (Except.ok.inj h)
    exact ⟨hnodup, rfl, (Except.ok.inj hbind).symm⟩
  · rintro ⟨hnodup, rfl, rfl⟩
    exact ⟨_, ⟨_, ⟨hnodup, rfl⟩, rfl⟩, _, bind_ofList hnodup, rfl⟩

end Layout

/-- Bindings of the declared fields, and of no others. -/
def Bindings.Serve (b : Bindings) (declared : Declarations) : Prop :=
  ∀ name, b.find? name = (declared.find? name).map FieldSpec.bound

theorem Bindings.serve_ofList (specs : List FieldSpec) :
    Serve (.ofList (specs.map FieldSpec.bound)) (NameMap.ofList specs) :=
  NameMap.find?_ofList_map (f := FieldSpec.bound) (fun _ => rfl) specs

theorem Bindings.Serve.require_eq_ok_iff {b : Bindings} {declared : Declarations}
    (h : b.Serve declared) {name : String} {f : BoundField} :
    b.require name = .ok f ↔ ∃ spec, declared.find? name = some spec ∧ spec.bound = f := by
  rw [require, h name]
  cases declared.find? name <;> simp

/-- Bindings of fields with the declared names and kinds, in whatever form they are held. -/
def Bindings.Knows (b : Bindings) (declared : Declarations) : Prop :=
  ∀ name, (b.find? name).map BoundField.kind = (declared.find? name).map FieldSpec.kind

theorem Bindings.Serve.knows {b : Bindings} {declared : Declarations} (h : b.Serve declared) :
    b.Knows declared := by
  intro name
  rw [h name, Option.map_map]
  rfl

namespace Layout

/-- A declared field as a layout holds it, or as it would be held if the layout has none. -/
def held (l : Layout) (spec : FieldSpec) : BoundField :=
  ⟨spec.kind, (l.find? spec.name).getD spec.layout⟩

theorem name_held (l : Layout) (spec : FieldSpec) :
    Named.name (l.held spec) = Named.name spec := by
  rw [held]
  cases h : l.find? spec.name with
  | none => rfl
  | some f => exact (NameMap.find?_eq_some_iff.mp h).2

theorem eq_held_of_bindField {l : Layout} {spec : FieldSpec} {f : BoundField}
    (h : l.bindField spec = .ok f) : f = l.held spec := by
  rw [bindField] at h
  rw [held]
  cases hfind : l.find? spec.name with
  | none =>
    rw [hfind] at h
    contradiction
  | some old =>
    rw [hfind] at h
    dsimp only at h
    split at h
    · exact (Except.ok.inj h).symm
    · contradiction

/-- **Declarations that are bound to a layout keep their kinds.** -/
theorem knows_bind {l : Layout} {specs : List FieldSpec} {b : Bindings}
    (h : l.bind specs = .ok b) : b.Knows (NameMap.ofList specs) := by
  obtain ⟨fields, hfields, rfl⟩ := map_eq_ok_iff.mp h
  have hheld : fields = specs.map l.held := by
    refine Except.ok.inj (hfields.symm.trans (mapM_eq_ok_iff.mpr ?_))
    rw [List.map_map]
    refine List.map_congr_left fun spec hspec => ?_
    obtain ⟨f, -, hf⟩ := exists_of_mapM_of_mem hfields hspec
    exact hf.trans (congrArg _ (eq_held_of_bindField hf))
  intro name
  rw [hheld, NameMap.find?_ofList_map (f := l.held) l.name_held, Option.map_map]
  rfl

end Layout

/-! ## Values of documents -/

/-- In a document that passes the check, the values of a field are of its kind. -/
theorem Declarations.kind_of_check {declared : Declarations} {d : Document}
    (hd : declared.check d = .ok ()) {name : String} {spec : FieldSpec}
    (hspec : declared.find? name = some spec) {v : FieldValue} (hv : v ∈ d.values name) :
    v.kind = spec.kind := by
  obtain ⟨f, hf, rfl⟩ := List.mem_map.mp hv
  obtain ⟨hmem, hname⟩ := List.mem_filter.mp hf
  obtain ⟨spec', hspec', hkind⟩ := check_eq_ok_iff.mp hd f hmem
  rw [beq_iff_eq.mp hname, hspec] at hspec'
  exact (Option.some.inj hspec' ▸ hkind).symm

theorem FieldSpec.name_bound (spec : FieldSpec) : spec.bound.layout.name = spec.name := rfl

end RowIndex
