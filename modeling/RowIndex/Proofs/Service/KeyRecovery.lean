import RowIndex.Proofs.Bytes.HexText
import RowIndex.Proofs.Service.Search

/-!
# Proofs/Service/KeyRecovery — partition keys survive the index

    key ──toField──▸ document ──cut down──▸ key field ──key──▸ the same key
     │                                          ▴
     └──term──────── identifies only ───────────┘

The key field of a row's document stays when the document is cut down to what a hit loads, and it is
the hexadecimal text of the key (`Document.Carries.values_project_keyLoad`).  Whatever text a key
field holds, it is read as the bytes that it spells in either case, or refused as an error of the
index (`Document.key_eq_ok_iff`, `Document.kind_of_key_eq_error`).
-/

namespace RowIndex

namespace Document

variable {d : Document} {store : Store}

/-- **A hit loads the key field.** -/
theorem Carries.values_project_keyLoad {p : Partitioner} {bytes : Bytes} (h : d.Carries p bytes) :
    (d.project keyLoad).values keyField = [.keyword (Hex.encode bytes)] := by
  rw [values_project, if_pos (by decide), h.key]

/-- **The key of a document is the place of the bytes that its key field spells.** -/
theorem key_eq_ok_iff {text : String} (h : d.first? keyField = some (.keyword text)) {key : Key} :
    d.key store = .ok key ↔ ∃ bytes, Hex.decode text = .ok bytes ∧ store.place bytes = key := by
  simp only [Document.key, h, Option.bind_some, FieldValue.asString?]
  cases Hex.decode text <;> simp

/-- A key that is not found is an error of the index. -/
theorem kind_of_key_eq_error {e : Error} (h : d.key store = .error e) : e.kind = .index := by
  rw [Document.key] at h
  split at h
  · cases h
    rfl
  · split at h
    · contradiction
    · cases h
      rfl

/-- A document without a key field has no key. -/
theorem key_of_first?_eq_none (h : d.first? keyField = none) :
    d.key store = .error (.keyNotLoaded keyField) := by
  rw [Document.key, h]
  rfl

/-- **A document has a key exactly if its key field is an even number of digits.** -/
theorem exists_key_iff {text : String} (h : d.first? keyField = some (.keyword text)) :
    (∃ key, d.key store = .ok key) ↔ Hex.Digits text.toList := by
  rw [← Hex.exists_decode_iff]
  constructor
  · rintro ⟨key, hkey⟩
    obtain ⟨bytes, hdecode, -⟩ := (key_eq_ok_iff h).mp hkey
    exact ⟨bytes, hdecode⟩
  · rintro ⟨bytes, hdecode⟩
    exact ⟨_, (key_eq_ok_iff h).mpr ⟨bytes, hdecode, rfl⟩⟩

end Document

namespace Service

/-- **Partition keys survive the index.**  The document of a row, cut down to what a hit loads, has
the row's key, and the term of a key identifies it exactly if it is that key.  A text in the key
field is a key exactly if it is an even number of digits in either case, and then the hexadecimal
text of the key is the text in lower case; any other text is refused by an error of the index, and
so is a document without a key field. -/
theorem keys_survive {ι : Type} :
    (∀ (openIndex : Settings → List FieldSpec → Except Error ι) (d : Definition) (t : Table)
      (store₀ : Store) (s₀ : Service ι), openWith openIndex d t store₀ = .ok s₀ →
      ∀ (store : Store) (index : ι) (r : Row) (bytes : Bytes), r.key = store.place bytes →
      let s : Service ι := { s₀ with store, index }
      ((∃ doc, s.document r = .ok doc) ↔ ∃ mapped, s.schema.addFields {} s.table r = .ok mapped) ∧
      ∀ doc, s.document r = .ok doc →
        (doc.project keyLoad).key store = .ok (store.place bytes) ∧
        ∀ other, (doc.hasTerm (store.place other).term = true ↔ bytes = other) ∧
          ((doc.project keyLoad).hasTerm (store.place other).term = true ↔ bytes = other)) ∧
    ∀ (doc : Document) (store : Store),
      (∀ text, doc.first? keyField = some (.keyword text) →
        ((∃ key, doc.key store = .ok key) ↔ Hex.Digits text.toList) ∧
        (∀ key, doc.key store = .ok key →
          key = store.place key.bytes ∧ Hex.encode key.bytes = Text.toLower text) ∧
        (¬Hex.Digits text.toList → ∃ e, doc.key store = .error e ∧ e.kind = .index)) ∧
      (doc.first? keyField = none → ∃ e, doc.key store = .error e ∧ e.kind = .index) := by
  constructor
  · intro openIndex d t store₀ s₀ hopen store index r bytes hkey s
    have hs : s.Configured :=
      ⟨(configured_of_openWith hopen).column_free, (configured_of_openWith hopen).valid⟩
    refine ⟨exists_document_iff hkey, fun doc hdoc => ?_⟩
    have hcarries := hs.carries_document hkey hdoc
    have hloaded := hcarries.values_project_keyLoad
    refine ⟨Document.key_of_values hloaded store, fun other => ⟨?_, ?_⟩⟩
    · exact hcarries.hasTerm_iff.trans eq_comm
    · exact (Document.hasTerm_of_values hloaded).trans eq_comm
  · intro doc store
    refine ⟨fun text htext => ⟨Document.exists_key_iff htext, fun key hkey => ?_, fun hno => ?_⟩,
      fun hnone => ⟨_, Document.key_of_first?_eq_none hnone, rfl⟩⟩
    · obtain ⟨bytes, hdecode, rfl⟩ := (Document.key_eq_ok_iff htext).mp hkey
      exact ⟨rfl, Hex.encode_of_decode hdecode⟩
    · cases hkey : doc.key store with
      | ok key => exact (hno ((Document.exists_key_iff htext).mp ⟨key, hkey⟩)).elim
      | error e => exact ⟨e, rfl, Document.kind_of_key_eq_error hkey⟩

/-- The empty key and a key of one byte do not meet; a key field in capitals is the key that it
spells, and one of three digits is none. -/
theorem keys_survive_of_empty_key :
    let store := sample.store
    let r : Row := .ofCells (store.place []) [⟨"n", some (.int 7), 10⟩]
    let held (text : String) : Document := ⟨[⟨keyField, .keyword text⟩]⟩
    (∃ doc, sample.document r = .ok doc ∧
      (doc.project keyLoad).key store = .ok (store.place []) ∧
      doc.hasTerm (store.place []).term = true ∧ doc.hasTerm (store.place [0]).term = false) ∧
    (∃ key, (held "0AfF").key store = .ok key ∧ Hex.encode key.bytes = Text.toLower "0AfF") ∧
    (∃ e, (held "0Af").key store = .error e ∧ e.kind = .index) ∧
    ∃ e, Document.key {} store = .error e ∧ e.kind = .index := by
  intro store r held
  obtain ⟨hrows, hkeys⟩ := keys_survive (ι := ScanIndex)
  obtain ⟨-, hdocuments⟩ := hrows _ _ _ _ sample openScan_sample store sample.index r [] rfl
  have hdoc : sample.document r = .ok
      ⟨[⟨tokenField, .keyword ""⟩, ⟨keyField, .keyword ""⟩, ⟨"n", .long 7⟩]⟩ := by decide
  obtain ⟨hkey, hterms⟩ := hdocuments _ hdoc
  obtain ⟨hcapitals, hlower, -⟩ := (hkeys (held "0AfF") store).1 "0AfF" (by decide)
  obtain ⟨key, hheld⟩ := hcapitals.mpr (by decide)
  refine ⟨⟨_, hdoc, hkey, (hterms []).1.mpr rfl, ?_⟩, ⟨key, hheld, (hlower key hheld).2⟩, ?_, ?_⟩
  · exact Bool.eq_false_iff.mpr fun h => by simpa using (hterms [0]).1.mp h
  · exact ((hkeys (held "0Af") store).1 "0Af" (by decide)).2.2 (by decide)
  · exact (hkeys {} store).2 rfl

end Service

end RowIndex
