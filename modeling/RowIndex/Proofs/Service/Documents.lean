import RowIndex.Proofs.Index.Declarations
import RowIndex.Proofs.Row.Cells
import RowIndex.Proofs.Schema.Fields
import RowIndex.Proofs.Store.Partitions
import RowIndex.Proofs.Token.Encoding
import RowIndex.Service.Basic

/-!
# Proofs/Service/Documents — what the document of a row holds

The document of a row holds the row's key once, the key's token once, and otherwise fields of
mappers (`document_eq_ok_iff`).  So it carries one key (`carries_document`), the term of a key
identifies it exactly if it carries that key (`hasTerm_iff`), and the index of its service accepts
it (`check_document`).
-/

namespace RowIndex

/-! ## Documents that carry a key -/

/-- A document that holds one key, and as its only token the token of that key. -/
structure Document.Carries (d : Document) (p : Partitioner) (bytes : Bytes) : Prop where
  key : d.values keyField = [.keyword (Hex.encode bytes)]
  token : ∃ v, p.encode (p.token bytes) = .ok v ∧ d.values tokenField = [v]

/-- The term of a key identifies a document of one key exactly if it is that key. -/
theorem Document.hasTerm_of_values {d : Document} {bytes : Bytes}
    (h : d.values keyField = [.keyword (Hex.encode bytes)]) {key : Key} :
    d.hasTerm key.term = true ↔ key.bytes = bytes := by
  rw [hasTerm, Key.term, h, List.contains_iff_mem, List.mem_singleton, FieldValue.keyword.injEq,
    Hex.encode_inj]

namespace Document.Carries

variable {d : Document} {p : Partitioner} {bytes : Bytes}

/-- **The term of a key identifies a document exactly if the document carries the key.** -/
theorem hasTerm_iff (h : d.Carries p bytes) {key : Key} :
    d.hasTerm key.term = true ↔ key.bytes = bytes := hasTerm_of_values h.key

/-- Two documents hold the same key exactly if they carry the same. -/
theorem values_eq_iff (h : d.Carries p bytes) {e : Document} {p' : Partitioner} {bytes' : Bytes}
    (h' : e.Carries p' bytes') : d.values keyField = e.values keyField ↔ bytes = bytes' := by
  rw [h.key, h'.key, List.cons.injEq, and_iff_left rfl, FieldValue.keyword.injEq, Hex.encode_inj]

/-- A document carries one key only. -/
theorem bytes_eq (h : d.Carries p bytes) {p' : Partitioner} {bytes' : Bytes}
    (h' : d.Carries p' bytes') : bytes = bytes' :=
  (h.values_eq_iff h').mp rfl

end Document.Carries

theorem tokenField_ne_keyField : tokenField ≠ keyField := by decide

namespace Document

/-- Fields of other names do not count among the values of a name. -/
theorem values_eq_nil_of_forall_ne {fields : List Field} {name : String}
    (h : ∀ f ∈ fields, f.name ≠ name) : values ⟨fields⟩ name = [] := by
  rw [values, List.filter_eq_nil_iff.mpr fun f hf => by simpa using h f hf, List.map_nil]

theorem values_cons_self (v : FieldValue) (fields : List Field) (name : String) :
    values ⟨⟨name, v⟩ :: fields⟩ name = v :: values ⟨fields⟩ name := by
  simp [values]

theorem values_cons_of_ne {f : Field} {name : String} (h : f.name ≠ name) (fields : List Field) :
    values ⟨f :: fields⟩ name = values ⟨fields⟩ name := by
  simp [values, h]

end Document

namespace Service

/-! ## Opened services -/

theorem check_eq_ok_iff {d : Definition} {t : Table} :
    check d t = .ok () ↔
      d.column ≠ "" ∧ t.column? d.column = none ∧ d.schema.validate t = .ok () := by
  rw [check]
  split
  · simp [*]
  · cases h : t.column? d.column <;> simp [*]

/-- A service whose definition suits its table. -/
structure Configured {ι : Type} (s : Service ι) : Prop where
  column_free : s.table.column? s.column = none
  valid : s.schema.validate s.table = .ok ()

variable {ι : Type}

theorem openWith_eq_ok_iff {openIndex : Settings → List FieldSpec → Except Error ι} {d : Definition}
    {t : Table} {store : Store} {s : Service ι} :
    openWith openIndex d t store = .ok s ↔
      check d t = .ok () ∧ ∃ index, openIndex d.settings (specs d store.partitioner) = .ok index ∧
        s = { table := t, column := d.column, schema := d.schema, store, index } := by
  simp only [openWith, bind_eq_ok_iff]
  constructor
  · rintro ⟨_, hcheck, index, hindex, h⟩
    exact ⟨hcheck, index, hindex, (Except.ok.inj h).symm⟩
  · rintro ⟨hcheck, index, hindex, rfl⟩
    exact ⟨(), hcheck, index, hindex, rfl⟩

theorem configured_of_openWith {openIndex : Settings → List FieldSpec → Except Error ι}
    {d : Definition} {t : Table} {store : Store} {s : Service ι}
    (h : openWith openIndex d t store = .ok s) : s.Configured := by
  obtain ⟨hcheck, index, -, rfl⟩ := openWith_eq_ok_iff.mp h
  obtain ⟨-, hfree, hvalid⟩ := check_eq_ok_iff.mp hcheck
  exact ⟨hfree, hvalid⟩

/-! ## Documents of rows -/

/-- **The document of a row: the token of its key, the key, and the mapped fields.** -/
theorem document_eq_ok_iff {s : Service ι} {r : Row} {d : Document} :
    s.document r = .ok d ↔
      ∃ v added, s.store.partitioner.encode r.key.token = .ok v ∧
        s.schema.fields.entries.mapM (Schema.fieldsOf s.table r) = .ok added ∧
        ⟨⟨tokenField, v⟩ :: r.key.toField :: added.flatten⟩ = d := by
  simp only [document, bind_eq_ok_iff, Partitioner.tokenFieldOf, map_eq_ok_iff,
    Schema.addFields_eq_ok_iff]
  constructor
  · rintro ⟨_, ⟨v, hv, rfl⟩, added, hadded, rfl⟩
    exact ⟨v, added, hv, hadded, rfl⟩
  · rintro ⟨v, added, hv, hadded, rfl⟩
    exact ⟨_, ⟨v, hv, rfl⟩, added, hadded, rfl⟩

/-- Mapped fields have names of their own. -/
theorem Configured.name_notMem_reserved {s : Service ι} (hs : s.Configured) {r : Row}
    {added : List (List Field)}
    (h : s.schema.fields.entries.mapM (Schema.fieldsOf s.table r) = .ok added) {g : Field}
    (hg : g ∈ added.flatten) : g.name ∉ reservedFields := by
  obtain ⟨f, hf, hname, -⟩ := Schema.mem_added h hg
  exact hname ▸ (Schema.usable_of_validate hs.valid hf).2

/-- **The document of a row carries the row's key.** -/
theorem Configured.carries_document {s : Service ι} (hs : s.Configured) {r : Row} {d : Document}
    {bytes : Bytes} (hkey : r.key = s.store.place bytes) (h : s.document r = .ok d) :
    d.Carries s.store.partitioner bytes := by
  obtain ⟨v, added, hv, hadded, rfl⟩ := document_eq_ok_iff.mp h
  have hreserved {name : String} (hname : name ∈ reservedFields) :
      Document.values ⟨added.flatten⟩ name = [] :=
    Document.values_eq_nil_of_forall_ne fun g hg heq =>
      hs.name_notMem_reserved hadded hg (heq ▸ hname)
  rw [hkey] at hv ⊢
  constructor
  · rw [Document.values_cons_of_ne tokenField_ne_keyField, Key.toField, Document.values_cons_self,
      hreserved (by decide), Store.bytes_place]
  · refine ⟨v, hv, ?_⟩
    rw [Document.values_cons_self, Document.values_cons_of_ne tokenField_ne_keyField.symm,
      hreserved (by decide)]

/-- The key of a row is no obstacle to its document. -/
theorem exists_document_iff {s : Service ι} {r : Row} {bytes : Bytes}
    (hkey : r.key = s.store.place bytes) :
    (∃ d, s.document r = .ok d) ↔ ∃ mapped, s.schema.addFields {} s.table r = .ok mapped := by
  obtain ⟨v, hv⟩ := s.store.partitioner.encode_token bytes
  have hv : s.store.partitioner.encode r.key.token = .ok v := hkey ▸ hv
  simp only [document_eq_ok_iff, Schema.addFields_eq_ok_iff, hv, Except.ok.injEq]
  constructor
  · rintro ⟨_, _, added, -, hadded, -⟩
    exact ⟨_, added, hadded, rfl⟩
  · rintro ⟨_, added, hadded, -⟩
    exact ⟨_, v, added, rfl, hadded, rfl⟩

/-- **The index of a service accepts the documents of its rows.** -/
theorem check_document {s : Service ι} {declared : Declarations}
    (hdeclared : Declarations.ofList (s.store.partitioner.tokenSpec :: keySpec :: s.schema.specs) =
      .ok declared) {r : Row} {d : Document} (h : s.document r = .ok d) :
    declared.check d = .ok () := by
  obtain ⟨v, added, hv, hadded, rfl⟩ := document_eq_ok_iff.mp h
  refine Declarations.check_eq_ok_iff.mpr fun g hg => ?_
  rcases List.mem_cons.mp hg with rfl | hg
  · exact ⟨_, Declarations.find?_of_ofList hdeclared List.mem_cons_self,
      (Partitioner.kind_of_encode hv).symm⟩
  rcases List.mem_cons.mp hg with rfl | hg
  · have hmem : keySpec ∈ s.store.partitioner.tokenSpec :: keySpec :: s.schema.specs :=
      List.mem_cons_of_mem _ List.mem_cons_self
    exact ⟨_, Declarations.find?_of_ofList hdeclared hmem, rfl⟩
  · obtain ⟨f, hf, hname, hkind⟩ := Schema.mem_added hadded hg
    have hmem : f.mapper.spec f.name ∈
        s.store.partitioner.tokenSpec :: keySpec :: s.schema.specs :=
      List.mem_cons_of_mem _ (List.mem_cons_of_mem _ (List.mem_map_of_mem hf))
    refine ⟨f.mapper.spec f.name, ?_, hkind.symm⟩
    rw [hname]
    exact Declarations.find?_of_ofList hdeclared hmem

/-- **The score column does not enter the document.** -/
theorem Configured.document_withCell {s : Service ι} (hs : s.Configured) (r : Row) {c : Cell}
    (hc : c.name = s.column) : s.document (r.withCell c) = s.document r := by
  have hadd (d : Document) :
      s.schema.addFields d s.table (r.withCell c) = s.schema.addFields d s.table r :=
    Schema.addFields_withCell (Or.inr (hc ▸ hs.column_free)) d r
  simp only [document, Row.key_withCell, hadd]

end Service

end RowIndex
