import RowIndex.Proofs.Service.Atomicity

/-!
# Proofs/Service/Acceptance — an index accepts what its service builds

A definition that suits its table declares every field once (`nodup_names_specs`), so its service
opens.  The token of a row always has a field value, so a row has no document only if a mapper
refuses one of its values (`document_eq_error_iff`); and a document holds every field once, of the
kind that is declared for it (`nodup_names_document`).  So bringing a row up to date fails, if it
fails, on account of the row and never of the index (`documents_accepted`).
-/

namespace RowIndex

theorem Error.Refuses.kind_ne_index {e : Error} {field : String} (h : e.Refuses field) :
    e.kind ≠ .index := by
  have hscope := h.rowScoped
  rw [isRowScoped] at hscope
  intro hkind
  rw [hkind] at hscope
  contradiction

namespace Service

/-! ## Declarations -/

/-- **The declared fields of a definition that suits its table have different names.** -/
theorem nodup_names_specs {d : Definition} {t : Table} (h : d.schema.validate t = .ok ())
    (p : Partitioner) : ((specs d p).map FieldSpec.name).Nodup := by
  have hnames : (specs d p).map FieldSpec.name =
      tokenField :: keyField :: d.schema.fields.entries.map MappedField.name := by
    rw [specs, List.map_cons, List.map_cons, Schema.specs, List.map_map]
    rfl
  have hreserved (name : String) (hname : name ∈ reservedFields) :
      name ∉ d.schema.fields.entries.map MappedField.name := by
    intro hmem
    obtain ⟨f, hf, rfl⟩ := List.mem_map.mp hmem
    exact (Schema.usable_of_validate h hf).2 hname
  rw [hnames]
  refine List.nodup_cons.mpr ⟨?_, List.nodup_cons.mpr ⟨hreserved keyField (by decide),
    d.schema.fields.nodup_names⟩⟩
  intro hmem
  exact (List.mem_cons.mp hmem).elim tokenField_ne_keyField (hreserved tokenField (by decide))

/-- **A service opens exactly if its definition suits its table.** -/
theorem exists_openScan_iff {d : Definition} {t : Table} {store : Store} :
    (∃ s, openScan d t store = .ok s) ↔ check d t = .ok () := by
  constructor
  · rintro ⟨s, hs⟩
    exact (openWith_eq_ok_iff.mp hs).1
  · intro hcheck
    have hnodup := nodup_names_specs (check_eq_ok_iff.mp hcheck).2.2 store.partitioner
    have hindex : ScanIndex.ofSpecs (specs d store.partitioner) =
        .ok { declared := NameMap.ofList (specs d store.partitioner) } :=
      map_eq_ok_iff.mpr ⟨_, Declarations.ofList_eq_ok_iff.mpr ⟨hnodup, rfl⟩, rfl⟩
    exact ⟨_, openWith_eq_ok_iff.mpr ⟨hcheck, _, hindex, rfl⟩⟩

/-! ## Documents -/

section Documents

variable {s : Service ScanIndex}

/-- The token of a row of the store has a field value. -/
theorem Opened.exists_tokenFieldOf (hs : s.Opened) {key : Key} {time : Int64} {r : Row}
    (h : s.store.read key time = some r) :
    ∃ token, s.store.partitioner.tokenFieldOf r.key = .ok token := by
  obtain ⟨p, hp, rfl⟩ := Option.map_eq_some_iff.mp h
  have hmem : key ∈ s.store.keys := List.mem_map_of_mem (hs.placed.mem_iff.mpr hp)
  obtain ⟨v, hv⟩ := s.store.partitioner.encode_token key.bytes
  refine ⟨_, map_eq_ok_iff.mpr ⟨v, ?_, rfl⟩⟩
  change s.store.partitioner.encode key.token = .ok v
  rw [hs.placed.placed key hmem]
  exact hv

/-- **A row has no document only because of the first of its mappers, in name order, that refuses
its value.** -/
theorem Opened.document_eq_error_iff (hs : s.Opened) {key : Key} {time : Int64} {r : Row}
    (h : s.store.read key time = some r) {e : Error} :
    s.document r = .error e ↔
      ∃ before f after, s.schema.fields.entries = before ++ f :: after ∧
        (∀ g ∈ before, ∃ fields, Schema.fieldsOf s.table r g = .ok fields) ∧
        Schema.fieldsOf s.table r f = .error e := by
  obtain ⟨token, htoken⟩ := hs.exists_tokenFieldOf h
  have hdocument : s.document r = s.schema.addFields ⟨[token, r.key.toField]⟩ s.table r := by
    rw [document, htoken]
    rfl
  rw [hdocument, Schema.addFields_eq_error_iff]

/-- A row without a document holds a value that the mapper of its column refuses. -/
theorem Opened.refuses_of_document (hs : s.Opened) {key : Key} {time : Int64} {r : Row}
    (h : s.store.read key time = some r) {e : Error} (he : s.document r = .error e) :
    ∃ f ∈ s.schema.fields.entries, e.Refuses f.name ∧
      ∃ raw, r.value? f.name = some raw ∧ f.mapper.coerce f.name raw = .error e := by
  obtain ⟨before, f, after, hentries, -, hf⟩ := (hs.document_eq_error_iff h).mp he
  obtain ⟨raw, -, hraw, hcoerce⟩ := Schema.fieldsOf_eq_error_iff.mp hf
  have hmem : f ∈ s.schema.fields.entries :=
    hentries ▸ List.mem_append_right _ List.mem_cons_self
  exact ⟨f, hmem, Mapper.refuses_coerce hcoerce, raw, hraw, hcoerce⟩

/-- **A document holds every field once.** -/
theorem Configured.nodup_names_document {ι : Type} {s : Service ι} (hs : s.Configured) {r : Row}
    {doc : Document} (h : s.document r = .ok doc) : (doc.fields.map Field.name).Nodup := by
  obtain ⟨v, added, -, hadded, rfl⟩ := document_eq_ok_iff.mp h
  have hreserved (name : String) (hname : name ∈ reservedFields) :
      name ∉ added.flatten.map Field.name := by
    intro hmem
    obtain ⟨g, hg, rfl⟩ := List.mem_map.mp hmem
    exact hs.name_notMem_reserved hadded hg hname
  refine List.nodup_cons.mpr ⟨?_, List.nodup_cons.mpr ⟨hreserved keyField (by decide),
    Schema.nodup_names_added hadded⟩⟩
  intro hmem
  exact (List.mem_cons.mp hmem).elim tokenField_ne_keyField (hreserved tokenField (by decide))

/-- A row that is not brought up to date holds a value that the mapper of its column refuses. -/
theorem Opened.refuses_of_reindex (hs : s.Opened) {bytes : Bytes} {m : Mutation} {time : Int64}
    {e : Error} (h : s.reindex bytes m time = .error e) :
    ∃ f ∈ s.schema.fields.entries, e.Refuses f.name := by
  obtain ⟨r, hrow, he⟩ := hs.reindex_eq_error_iff.mp h
  obtain ⟨f, hf, hrefuses, -⟩ := hs.refuses_of_document (Store.liveRow?_eq_some_iff.mp hrow).1 he
  exact ⟨f, hf, hrefuses⟩

end Documents

/-- **An index accepts what its service builds.**  A service opens exactly if its definition suits
its table.  In every state that calls lead to, a row that can be read has a token field, and has no
document only if a mapper refuses one of its values; every field of a document is declared with the
kind of its value, and no name occurs twice.  So bringing a row up to date never fails on account of
the index. -/
theorem documents_accepted (d : Definition) (t : Table) (p : Partitioner)
    (edits : List Store.Edit) :
    ((∃ s, openScan d t (.ofEdits p edits) = .ok s) ↔
      d.column ≠ "" ∧ t.column? d.column = none ∧ d.schema.validate t = .ok ()) ∧
    ∀ s₀, openScan d t (.ofEdits p edits) = .ok s₀ → ∀ calls : List Call,
      let s := s₀.run calls
      (∀ key time r, s.store.read key time = some r →
        (∃ token, s.store.partitioner.tokenFieldOf r.key = .ok token) ∧
        (∀ e, s.document r = .error e →
          ∃ f ∈ d.schema.fields.entries, e.isRowScoped = true ∧ e.field? = some f.name ∧
            ∃ raw, r.value? f.name = some raw ∧ f.mapper.coerce f.name raw = .error e) ∧
        ∀ doc, s.document r = .ok doc →
          (∀ g ∈ doc.fields, ∃ spec ∈ specs d p, spec.name = g.name ∧ spec.kind = g.value.kind ∧
            s.index.declared.find? g.name = some spec) ∧
          (doc.fields.map Field.name).Nodup) ∧
      ∀ bytes m time e, s.reindex bytes m time = .error e →
        e.isRowScoped = true ∧ e.kind ≠ .index := by
  obtain ⟨hpartitioner, hplaced⟩ := Store.wellPlaced_ofEdits p edits
  refine ⟨exists_openScan_iff.trans check_eq_ok_iff, ?_⟩
  intro s₀ hopen calls s
  obtain ⟨hs, hagrees⟩ := (sound_openScan hopen hplaced).run calls
  have hschema : s.schema = d.schema := by
    obtain ⟨-, _, -, rfl⟩ := openWith_eq_ok_iff.mp hopen
    exact hagrees.schema
  have hp : s.store.partitioner = p := by
    rw [hagrees.partitioner, store_openScan hopen, hpartitioner]
  refine ⟨fun key time r hread => ⟨hs.exists_tokenFieldOf hread, fun e he => ?_, fun doc hdoc =>
    ⟨fun g hg => ?_, hs.nodup_names_document hdoc⟩⟩, fun bytes m time e he => ?_⟩
  · obtain ⟨f, hf, hrefuses, hraw⟩ := hs.refuses_of_document hread he
    exact ⟨f, hschema ▸ hf, hrefuses.rowScoped, hrefuses.field, hraw⟩
  · have hcheck := check_document hs.declared hdoc
    obtain ⟨spec, hspec, hkind⟩ := Declarations.check_eq_ok_iff.mp hcheck g hg
    obtain ⟨hmem, hname⟩ := Declarations.mem_of_find?_ofList hs.declared hspec
    rw [hp, hschema] at hmem
    exact ⟨spec, hmem, hname, hkind, hspec⟩
  · obtain ⟨f, -, hrefuses⟩ := hs.refuses_of_reindex he
    exact ⟨hrefuses.rowScoped, hrefuses.kind_ne_index⟩

/-- The row of the empty key has a document; the row with a text where a number is mapped has none,
for that column, and is not brought up to date. -/
theorem documents_accepted_beside_refusal :
    let text : Mutation := { cells := [⟨"n", some (.text "x"), 20⟩] }
    let edits : List Store.Edit := [.apply [] (sampleWrite 7 10), .apply [1] (sampleWrite 8 10)]
    let calls : List Call := [.apply [1] text, .reindex [] (sampleWrite 7 10) 20]
    let s := { sample with store := .ofEdits .byteOrdered edits }.run calls
    let r : Row := .ofMap ⟨.byteOrdered [], []⟩ (.ofList [⟨"n", some (.int 7), 10⟩])
    (∃ s₀, openScan sampleDefinition sampleTable (.ofEdits .byteOrdered edits) = .ok s₀) ∧
      s.store.read ⟨.byteOrdered [], []⟩ 20 = some r ∧
      (∃ doc, s.document r = .ok doc ∧ doc.fields.length = 3 ∧
        (doc.fields.map Field.name).Nodup) ∧
      ∃ e, s.reindex [1] text 20 = .error e ∧ e.isRowScoped = true ∧ e.kind ≠ .index := by
  intro text edits calls s r
  have hall := documents_accepted sampleDefinition sampleTable .byteOrdered edits
  have hopen : openScan sampleDefinition sampleTable (.ofEdits .byteOrdered edits) =
      .ok { sample with store := .ofEdits .byteOrdered edits } :=
    openWith_eq_ok_iff.mpr ⟨rfl, sample.index,
      by rw [(Store.wellPlaced_ofEdits .byteOrdered edits).1]; rfl, rfl⟩
  obtain ⟨hrows, hreindex⟩ := hall.2 _ hopen calls
  have hread : s.store.read ⟨.byteOrdered [], []⟩ 20 = some r := by decide +kernel
  have hdoc : s.document r =
      .ok ⟨[⟨tokenField, .keyword ""⟩, ⟨keyField, .keyword ""⟩, ⟨"n", .long 7⟩]⟩ := by
    decide +kernel
  have hfails : ((s.reindex [1] text 20) matches .error _) = true := by decide +kernel
  refine ⟨hall.1.mpr ⟨by decide, by decide, rfl⟩, hread,
    ⟨_, hdoc, rfl, ((hrows _ _ _ hread).2.2 _ hdoc).2⟩, ?_⟩
  cases h : s.reindex [1] text 20 with
  | ok r =>
    rw [h] at hfails
    exact nomatch hfails
  | error e => exact ⟨e, rfl, hreindex _ _ _ e h⟩

end Service

end RowIndex
