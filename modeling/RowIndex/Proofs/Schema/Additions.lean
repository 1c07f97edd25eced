import RowIndex.Proofs.Programs
import RowIndex.Proofs.Schema.Fields

/-!
# Proofs/Schema/Additions — the fields of a row are added all together or not at all

    mappers ──fieldsOf──▸ fields of each │ first refusal
                             │ flatten
    document ────────────────┴──append──▸ document

A document that is changed in place keeps what was added to it before a mapper refused its value.
Here the fields are collected first (`addFieldsInPlace`), so that a refusal leaves the document
alone (`run_addFieldsInPlace`), and it is the refusal of the first mapper that has one
(`exists_first_rejection`).  Without a refusal each mapped field that is supplied is added with the
value that its mapper reads (`gives_of_mem_added`), in the order of the names (`pairwise_added`).
-/

namespace RowIndex.Schema

variable {s : Schema} {t : Table} {r : Row}

/-! ## Adding fields in place -/

/-- Put the fields that a row gives to one mapper behind those of the mappers before it. -/
def gather (t : Table) (r : Row) (fields : List Field) (f : MappedField) :
    EStateM Error Document (List Field) := do
  let more ← MonadExcept.ofExcept (fieldsOf t r f)
  return fields ++ more

/-- Add the fields of a row to a document in place: all are collected before any is added. -/
def addFieldsInPlace (s : Schema) (t : Table) (r : Row) : EStateM Error Document Unit := do
  let fields ← s.fields.entries.foldlM (gather t r) []
  modify (·.append fields)

/-- While fields are collected, the document stays as it is. -/
theorem run_foldlM_gather (mapped : List MappedField) (fields : List Field) (d : Document) :
    (mapped.foldlM (gather t r) fields).run d =
      settle d ((mapped.mapM (fieldsOf t r)).map fun added => (fields ++ added.flatten, d)) := by
  induction mapped generalizing fields with
  | nil =>
    rw [List.foldlM_nil, List.mapM_nil]
    change _ = EStateM.Result.ok (fields ++ [].flatten) d
    rw [List.flatten_nil, List.append_nil]
    rfl
  | cons f rest ih =>
    rw [List.foldlM_cons, EStateM.run_bind, gather, run_bind_ofExcept, List.mapM_cons]
    cases fieldsOf t r f with
    | error e => rfl
    | ok more =>
      change (rest.foldlM (gather t r) (fields ++ more)).run d = _
      rw [ih]
      cases rest.mapM (fieldsOf t r) with
      | error e => rfl
      | ok added =>
        change EStateM.Result.ok (fields ++ more ++ added.flatten) d = _
        rw [List.append_assoc]
        rfl

/-- **Fields are added to a document, or it is left alone.** -/
theorem run_addFieldsInPlace (s : Schema) (t : Table) (r : Row) (d : Document) :
    (addFieldsInPlace s t r).run d = settle d ((s.addFields d t r).map ((), ·)) := by
  rw [addFieldsInPlace, EStateM.run_bind, run_foldlM_gather, addFields]
  cases s.fields.entries.mapM (fieldsOf t r) <;> rfl

/-! ## What is rejected -/

/-- A row gives a mapped field a value that its mapper rejects: the table has the field's column,
and the row a cell in it. -/
def Rejects (t : Table) (r : Row) (f : MappedField) (e : Error) : Prop :=
  ∃ raw, (t.column? f.name).isSome = true ∧ r.value? f.name = some raw ∧
    f.mapper.coerce f.name raw = .error e

/-- Where some field is rejected, the error is that of the first one in the order of names. -/
theorem exists_first_rejection {f : MappedField} (hf : f ∈ s.fields.entries) {e : Error}
    (he : Rejects t r f e) (d : Document) :
    ∃ first ∈ s.fields.entries, ∃ e', Rejects t r first e' ∧ s.addFields d t r = .error e' ∧
      ∀ g ∈ s.fields.entries, g.name < first.name → ∀ e'', ¬Rejects t r g e'' := by
  cases hadd : s.addFields d t r with
  | ok d' =>
    obtain ⟨added, hadded, -⟩ := addFields_eq_ok_iff.mp hadd
    obtain ⟨fields, -, hfields⟩ := exists_of_mapM_of_mem hadded hf
    rw [fieldsOf_eq_error_iff.mpr he] at hfields
    contradiction
  | error e' =>
    obtain ⟨before, first, after, hentries, hbefore, hfirst⟩ := addFields_eq_error_iff.mp hadd
    refine ⟨first, by simp [hentries], e', fieldsOf_eq_error_iff.mp hfirst, rfl, ?_⟩
    intro g hg hlt e'' hrejects
    have hascending := s.fields.ascending
    rw [hentries] at hg hascending
    obtain ⟨-, hlater, -⟩ := List.pairwise_append.mp hascending
    rcases List.mem_append.mp hg with hg | hg
    · -- a field before the first rejection has been read
      obtain ⟨fields, hfields⟩ := hbefore g hg
      rw [fieldsOf_eq_error_iff.mpr hrejects] at hfields
      contradiction
    · rcases List.mem_cons.mp hg with rfl | hg
      · exact String.lt_irrefl _ hlt
      · exact String.lt_irrefl _
          (String.lt_trans hlt ((List.pairwise_cons.mp hlater).1 g hg))

/-! ## What is added -/

/-- A mapped field has in a row the value that its mapper reads: the table has its column, and the
row a cell in it. -/
def Gives (s : Schema) (t : Table) (r : Row) (g : Field) : Prop :=
  ∃ m raw, s.mapper? g.name = some m ∧ (t.column? g.name).isSome = true ∧
    r.value? g.name = some raw ∧ m.coerce g.name raw = .ok g.value

theorem gives_of_mem_added {added : List (List Field)}
    (h : s.fields.entries.mapM (fieldsOf t r) = .ok added) {g : Field} (hg : g ∈ added.flatten) :
    Gives s t r g := by
  obtain ⟨fields, hfields, hmem⟩ := List.mem_flatten.mp hg
  obtain ⟨f, hf, hok⟩ := exists_of_mem_mapM h hfields
  rcases fieldsOf_eq_ok_iff.mp hok with ⟨-, rfl⟩ | ⟨raw, v, hcolumn, hraw, hv, rfl⟩
  · exact (List.not_mem_nil hmem).elim
  · obtain rfl := List.mem_singleton.mp hmem
    have hmapper : s.mapper? f.name = some f.mapper :=
      Option.map_eq_some_iff.mpr ⟨f, NameMap.mem_iff_find?.mp hf, rfl⟩
    exact ⟨f.mapper, raw, hmapper, hcolumn, hraw, hv⟩

/-- The added fields stand in strictly ascending order of their names. -/
theorem pairwise_added {added : List (List Field)}
    (h : s.fields.entries.mapM (fieldsOf t r) = .ok added) :
    (added.flatten.map Field.name).Pairwise (· < ·) :=
  (List.pairwise_map.mpr s.fields.ascending).sublist (sublist_names_added h)

/-- A document to which no field refuses its value gets all that are supplied. -/
theorem addFields_eq_ok_of_forall
    (h : ∀ f ∈ s.fields.entries, ∀ e, ¬Rejects t r f e) (d : Document) :
    ∃ added : List Field, s.addFields d t r = .ok ⟨d.fields ++ added⟩ ∧
      added.map Field.name = s.fields.names.filter (supplies t r) ∧
      (added.map Field.name).Pairwise (· < ·) ∧ ∀ g ∈ added, Gives s t r g := by
  have hread : ∀ f ∈ s.fields.entries, ∃ fields, fieldsOf t r f = .ok fields := by
    intro f hf
    cases hfields : fieldsOf t r f with
    | ok fields => exact ⟨fields, rfl⟩
    | error e => exact (h f hf e (fieldsOf_eq_error_iff.mp hfields)).elim
  obtain ⟨added, hadded⟩ := exists_mapM_iff.mpr hread
  exact ⟨added.flatten, addFields_eq_ok_iff.mpr ⟨added, hadded, rfl⟩, map_name_added hadded,
    pairwise_added hadded, fun g hg => gives_of_mem_added hadded hg⟩

/-! ## All or none -/

/-- **The fields of a row are added all together or not at all, and none is left out.**  The program
that changes the document in place ends as `addFields` says.  If a value is rejected, the error is
that of the first rejected field in the order of names, and the document stays as it is.  If none
is, the old fields are followed by one field for each name that is mapped, a column of the table and
a cell of the row, in ascending order and with the value that its mapper reads.  A cell whose name
is not mapped or not a column changes nothing. -/
theorem addFields_all_or_none (s : Schema) (t : Table) (r : Row) (d : Document) :
    (addFieldsInPlace s t r).run d = settle d ((s.addFields d t r).map ((), ·)) ∧
    (∀ f ∈ s.fields.entries, ∀ e, Rejects t r f e →
      ∃ first ∈ s.fields.entries, ∃ e', Rejects t r first e' ∧
        (∀ g ∈ s.fields.entries, g.name < first.name → ∀ e'', ¬Rejects t r g e'') ∧
        s.addFields d t r = .error e' ∧ (addFieldsInPlace s t r).run d = .error e' d) ∧
    ((∀ f ∈ s.fields.entries, ∀ e, ¬Rejects t r f e) →
      ∃ added : List Field, s.addFields d t r = .ok ⟨d.fields ++ added⟩ ∧
        (addFieldsInPlace s t r).run d = .ok () ⟨d.fields ++ added⟩ ∧
        added.map Field.name = s.fields.names.filter (supplies t r) ∧
        (added.map Field.name).Pairwise (· < ·) ∧ ∀ g ∈ added, Gives s t r g) ∧
    ∀ c : Cell, s.mapper? c.name = none ∨ t.column? c.name = none →
      s.addFields d t (r.withCell c) = s.addFields d t r ∧
        (addFieldsInPlace s t (r.withCell c)).run d = (addFieldsInPlace s t r).run d := by
  have hrun := run_addFieldsInPlace s t
  refine ⟨hrun r d, fun f hf e he => ?_, fun hnone => ?_, fun c hc => ?_⟩
  · obtain ⟨first, hfirst, e', hrejects, hadd, hbefore⟩ := exists_first_rejection hf he d
    refine ⟨first, hfirst, e', hrejects, hbefore, hadd, ?_⟩
    rw [hrun, hadd]
    rfl
  · obtain ⟨added, hadd, hnames, hascending, hgives⟩ := addFields_eq_ok_of_forall hnone d
    refine ⟨added, hadd, ?_, hnames, hascending, hgives⟩
    rw [hrun, hadd]
    rfl
  · have hadd := addFields_withCell hc d r
    exact ⟨hadd, by rw [hrun, hrun, hadd]⟩

/-- A price that is no number keeps the city out as well; a price that is one comes behind it. -/
theorem addFields_all_or_none_of_prices :
    let s : Schema := .ofList [⟨"price", { type := .long }⟩, ⟨"city", { type := .string false }⟩]
    let t : Table := ⟨"t", [⟨"price", .text⟩, ⟨"city", .text⟩, ⟨"zip", .text⟩]⟩
    let d : Document := ⟨[⟨tokenField, .long 1⟩]⟩
    let row (price : String) : Row := .ofCells (Partitioner.byteOrdered.place [1])
      [⟨"price", some (.text price), 1⟩, ⟨"zip", some (.text "75001"), 1⟩,
        ⟨"city", some (.text "Paris"), 1⟩]
    Rejects t (row "nine") ⟨"price", { type := .long }⟩ (.unreadable "price" .long "nine") ∧
      (addFieldsInPlace s t (row "nine")).run d = .error (.unreadable "price" .long "nine") d ∧
      (∃ added, (addFieldsInPlace s t (row "9")).run d = .ok () ⟨d.fields ++ added⟩ ∧
        added.map Field.name = ["city", "price"]) ∧
      (addFieldsInPlace s t ((row "9").withCell ⟨"zip", none, 2⟩)).run d =
        (addFieldsInPlace s t (row "9")).run d := by
  intro s t d row
  have hrejects : Rejects t (row "nine") ⟨"price", { type := .long }⟩
      (.unreadable "price" .long "nine") :=
    ⟨.text "nine", by decide +kernel, by decide +kernel, by decide +kernel⟩
  obtain ⟨-, hrejected, -, -⟩ := addFields_all_or_none s t (row "nine") d
  obtain ⟨-, -, hadded, hother⟩ := addFields_all_or_none s t (row "9") d
  refine ⟨hrejects, ?_, ?_, (hother ⟨"zip", none, 2⟩ (Or.inl (by decide +kernel))).2⟩
  · obtain ⟨-, -, e, -, -, hadd, hrun⟩ := hrejected _ (by decide +kernel) _ hrejects
    have he : s.addFields d t (row "nine") = .error (.unreadable "price" .long "nine") := by
      decide +kernel
    obtain rfl := Except.error.inj (hadd.symm.trans he)
    exact hrun
  · have hnone : ∀ f ∈ s.fields.entries, ∀ e, ¬Rejects t (row "9") f e := by
      intro f hf e he
      obtain ⟨-, -, e', -, hadd, -⟩ := exists_first_rejection hf he d
      have hok : s.addFields d t (row "9") =
          .ok ⟨[⟨tokenField, .long 1⟩, ⟨"city", .keyword "paris"⟩, ⟨"price", .long 9⟩]⟩ := by
        decide +kernel
      rw [hok] at hadd
      contradiction
    obtain ⟨added, -, hrun, hnames, -⟩ := hadded hnone
    exact ⟨added, hrun, hnames.trans (by decide +kernel)⟩

end RowIndex.Schema
