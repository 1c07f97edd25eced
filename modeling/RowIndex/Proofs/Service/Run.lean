import RowIndex.Proofs.Index.Changes
import RowIndex.Proofs.Service.Documents
import RowIndex.Proofs.Store.LiveRows

/-!
# Proofs/Service/Run — what every sequence of calls keeps

A service is driven by calls that write to the store alone, or bring the index up to date.  To bring
a row up to date is to read it, and to change the index in place if there is something to change
(`run_reindexInPlace_of_document`); over the scanned index, a row is brought up to date or the
service is left alone (`run_reindexInPlace`).  After any calls every document there carries one key,
and no two the same (`Sound.run`).  One call of `reindex` replaces the documents of its own key by
what the row as of its time gives, and touches no other (`documentsOf_reindex`).
-/

namespace RowIndex.Service

/-! ## Calls -/

/-- A service over the scanned index. -/
def openScan (d : Definition) (t : Table) (store : Store) : Except Error (Service ScanIndex) :=
  openWith (fun _ specs => ScanIndex.ofSpecs specs) d t store

/-- A call that changes the store or the index. -/
inductive Call where
  /-- Apply a mutation to the store alone. -/
  | apply (bytes : Bytes) (m : Mutation)
  /-- Drop a partition from the store alone. -/
  | purge (bytes : Bytes)
  /-- Bring one row up to date. -/
  | reindex (bytes : Bytes) (m : Mutation) (time : Int64)
  /-- Bring a list of rows up to date. -/
  | reindexAll (items : List (Bytes × Mutation)) (time : Int64)
  /-- Remove the document of a key. -/
  | remove (key : Key)
  deriving DecidableEq

/-- The keys whose documents a call may change. -/
def Call.keys : Call → List Bytes
  | .apply _ _ | .purge _ => []
  | .reindex bytes _ _ => [bytes]
  | .reindexAll items _ => items.map Prod.fst
  | .remove key => [key.bytes]

/-- The service after a call: a call that fails changes nothing. -/
def after (s : Service ScanIndex) : Except Error (Service ScanIndex) → Service ScanIndex
  | .ok s' => s'
  | .error _ => s

/-- The service after a call. -/
def call (s : Service ScanIndex) : Call → Service ScanIndex
  | .apply bytes m => s.apply bytes m
  | .purge bytes => s.purge bytes
  | .reindex bytes m time => s.after ((s.reindex bytes m time).map Prod.snd)
  | .reindexAll items time => (s.reindexAll items time).2
  | .remove key => s.after (s.remove key)

/-- The service after a list of calls. -/
def run (s : Service ScanIndex) (calls : List Call) : Service ScanIndex := calls.foldl call s

theorem run_cons (s : Service ScanIndex) (c : Call) (calls : List Call) :
    s.run (c :: calls) = (s.call c).run calls := rfl

/-! ## One row in place -/

theorem run_onIndex {ι α : Type} (x : EStateM Error ι α) (s : Service ι) :
    (onIndex x).run s = mapEnd (fun index => { s with index }) (x.run s.index) := rfl

section InPlace

variable {ι : Type} [SearchIndex ι] {s : Service ι} {bytes : Bytes} {m : Mutation} {time : Int64}

/-- The row as of the time is put into the index if it is live and has a document. -/
theorem run_reindexInPlace_of_document {r : Row}
    (hrow : s.store.liveRow? (s.store.place bytes) time = some r) {d : Document}
    (hd : s.document r = .ok d) :
    (reindexInPlace bytes m time).run s =
      match (SearchIndex.upsert (s.store.place bytes).term d).run s.index with
      | .ok _ index => .ok .upserted { s with index }
      | .error e index => .error e { s with index } := by
  rw [Store.liveRow?] at hrow
  rw [reindexInPlace, EStateM.run_bind, EStateM.run_get]
  dsimp only
  rw [hrow]
  dsimp only
  rw [hd, run_bind_ofExcept]
  dsimp only
  rw [EStateM.run_bind, run_onIndex]
  cases (SearchIndex.upsert (s.store.place bytes).term d).run s.index <;> rfl

/-- A row without a document is refused before the index is touched. -/
theorem run_reindexInPlace_of_refused {r : Row}
    (hrow : s.store.liveRow? (s.store.place bytes) time = some r) {e : Error}
    (hd : s.document r = .error e) : (reindexInPlace bytes m time).run s = .error e s := by
  rw [Store.liveRow?] at hrow
  rw [reindexInPlace, EStateM.run_bind, EStateM.run_get]
  dsimp only
  rw [hrow]
  dsimp only
  rw [hd]
  rfl

/-- The document of a row that is gone is removed by a deletion alone. -/
theorem run_reindexInPlace_of_gone
    (hrow : s.store.liveRow? (s.store.place bytes) time = none) :
    (reindexInPlace bytes m time).run s =
      if m.isDeletion then
        match (SearchIndex.delete (s.store.place bytes).term).run s.index with
        | .ok _ index => .ok .deleted { s with index }
        | .error e index => .error e { s with index }
      else .ok .skipped s := by
  rw [Store.liveRow?] at hrow
  rw [reindexInPlace, EStateM.run_bind, EStateM.run_get]
  dsimp only
  rw [hrow]
  dsimp only
  split
  · rw [EStateM.run_bind, removeInPlace, run_onIndex]
    cases (SearchIndex.delete (s.store.place bytes).term).run s.index <;> rfl
  · rfl

end InPlace

/-- **Over the scanned index a row is brought up to date, or the service is left alone.** -/
theorem run_reindexInPlace (s : Service ScanIndex) (bytes : Bytes) (m : Mutation) (time : Int64) :
    (reindexInPlace bytes m time).run s = settle s (s.reindex bytes m time) := by
  rw [reindex, RowIndex.outcome]
  cases hrow : s.store.liveRow? (s.store.place bytes) time with
  | some r =>
    cases hd : s.document r with
    | error e => rw [run_reindexInPlace_of_refused hrow hd]; rfl
    | ok d =>
      rw [run_reindexInPlace_of_document hrow hd, ScanIndex.run_upsert]
      cases s.index.declared.check d <;> rfl
  | none =>
    rw [run_reindexInPlace_of_gone hrow, ScanIndex.run_delete]
    cases m.isDeletion <;> rfl

/-! ## Batches -/

/-- What bringing a row up to date does with it, or why it fails. -/
def outcome (s : Service ScanIndex) (time : Int64) (item : Bytes × Mutation) :
    Except Error Outcome :=
  (s.reindex item.1 item.2 time).map Prod.fst

/-- One step of a batch reports the outcome of its item, and brings its row up to date. -/
theorem reindexStep_eq (s : Service ScanIndex) (time : Int64) (report : BatchReport)
    (item : Bytes × Mutation) :
    reindexStep time (report, s) item =
      (report.add item.1 (s.outcome time item), s.call (.reindex item.1 item.2 time)) := by
  rw [reindexStep, run_reindexInPlace, outcome, call]
  cases s.reindex item.1 item.2 time <;> rfl

/-- **A batch is its rows one after another**: the rows that fail do not stop the others. -/
theorem call_reindexAll (s : Service ScanIndex) (items : List (Bytes × Mutation)) (time : Int64) :
    s.call (.reindexAll items time) =
      s.run (items.map fun item => .reindex item.1 item.2 time) := by
  have hfold (report : BatchReport) :
      (items.foldl (reindexStep time) (report, s)).2 =
        s.run (items.map fun item => .reindex item.1 item.2 time) := by
    induction items generalizing report s with
    | nil => rfl
    | cons item rest ih =>
      rw [List.foldl_cons, List.map_cons, run_cons, reindexStep_eq]
      exact ih _ _
  exact hfold {}

/-! ## What no call changes -/

/-- Two services of one definition, over stores of one partitioner. -/
structure Agrees (s s' : Service ScanIndex) : Prop where
  table : s'.table = s.table
  column : s'.column = s.column
  schema : s'.schema = s.schema
  partitioner : s'.store.partitioner = s.store.partitioner
  declared : s'.index.declared = s.index.declared

namespace Agrees

variable {s s' s'' : Service ScanIndex}

theorem refl (s : Service ScanIndex) : s.Agrees s := ⟨rfl, rfl, rfl, rfl, rfl⟩

theorem trans (h : s.Agrees s') (h' : s'.Agrees s'') : s.Agrees s'' :=
  ⟨h'.table.trans h.table, h'.column.trans h.column, h'.schema.trans h.schema,
    h'.partitioner.trans h.partitioner, h'.declared.trans h.declared⟩

theorem place (h : s.Agrees s') (bytes : Bytes) : s'.store.place bytes = s.store.place bytes := by
  rw [Store.place, Store.place, h.partitioner]

theorem document (h : s.Agrees s') (r : Row) : s'.document r = s.document r := by
  simp only [Service.document, h.table, h.schema, h.partitioner]

end Agrees

/-- The service with other documents in its index. -/
def withDocuments (s : Service ScanIndex) (documents : List Document) : Service ScanIndex :=
  { s with index := { s.index with documents } }

theorem agrees_withDocuments (s : Service ScanIndex) (documents : List Document) :
    s.Agrees (s.withDocuments documents) := ⟨rfl, rfl, rfl, rfl, rfl⟩

/-! ## Sound services -/

/-- A service that is open: its definition suits its table, its index has the declarations of its
definition, and every key of its store is where the partitioner places it. -/
structure Opened (s : Service ScanIndex) : Prop extends s.Configured where
  declared : Declarations.ofList
    (s.store.partitioner.tokenSpec :: keySpec :: s.schema.specs) = .ok s.index.declared
  placed : s.store.WellPlaced

/-- An open service whose documents carry one key each, no two the same. -/
structure Sound (s : Service ScanIndex) : Prop extends s.Opened where
  carries : ∀ d ∈ s.index.documents, ∃ bytes, d.Carries s.store.partitioner bytes
  distinct : s.index.documents.Pairwise fun d e => d.values keyField ≠ e.values keyField

theorem Opened.of_agrees {s s' : Service ScanIndex} (hs : s.Opened) (h : s.Agrees s')
    (hplaced : s'.store.WellPlaced) : s'.Opened where
  column_free := by rw [h.table, h.column]; exact hs.column_free
  valid := by rw [h.table, h.schema]; exact hs.valid
  declared := by rw [h.partitioner, h.schema, h.declared]; exact hs.declared
  placed := hplaced

theorem store_openScan {d : Definition} {t : Table} {store : Store} {s : Service ScanIndex}
    (h : openScan d t store = .ok s) : s.store = store := by
  obtain ⟨-, index, -, rfl⟩ := openWith_eq_ok_iff.mp h
  rfl

/-- **An opened service is sound**: its index is empty. -/
theorem sound_openScan {d : Definition} {t : Table} {store : Store} {s : Service ScanIndex}
    (h : openScan d t store = .ok s) (hplaced : store.WellPlaced) : s.Sound := by
  have hconfigured := configured_of_openWith h
  obtain ⟨-, index, hindex, rfl⟩ := openWith_eq_ok_iff.mp h
  obtain ⟨declared, hdeclared, rfl⟩ := map_eq_ok_iff.mp hindex
  exact
    { hconfigured with
      declared := hdeclared
      placed := hplaced
      carries := fun _ hd => (List.not_mem_nil hd).elim
      distinct := .nil }

namespace Sound

variable {s : Service ScanIndex}

/-- A term identifies a document of a sound service exactly if the document carries its key. -/
theorem hasTerm_iff (hs : s.Sound) {d : Document} (hd : d ∈ s.index.documents) {bytes : Bytes} :
    d.hasTerm (s.store.place bytes).term = true ↔ d.Carries s.store.partitioner bytes := by
  obtain ⟨b, hb⟩ := hs.carries d hd
  rw [hb.hasTerm_iff, Store.bytes_place]
  exact ⟨fun h => h ▸ hb, fun h => h.bytes_eq hb⟩

theorem withDocuments (hs : s.Sound) {documents : List Document}
    (hcarries : ∀ d ∈ documents, ∃ bytes, d.Carries s.store.partitioner bytes)
    (hdistinct : documents.Pairwise fun d e => d.values keyField ≠ e.values keyField) :
    (s.withDocuments documents).Sound :=
  { hs.toOpened.of_agrees (s.agrees_withDocuments documents) hs.placed with
    carries := hcarries
    distinct := hdistinct }

theorem without (hs : s.Sound) (t : Term) : (s.withDocuments (s.index.without t)).Sound :=
  hs.withDocuments (fun d hd => hs.carries d (List.mem_filter.mp hd).1)
    (hs.distinct.sublist List.filter_sublist)

/-- Replacing the documents of a key by one that carries it keeps a service sound. -/
theorem replace (hs : s.Sound) {d : Document} {bytes : Bytes}
    (hd : d.Carries s.store.partitioner bytes) :
    (s.withDocuments (s.index.without (s.store.place bytes).term ++ [d])).Sound := by
  refine hs.withDocuments (fun e he => ?_) (List.pairwise_append.mpr
    ⟨hs.distinct.sublist List.filter_sublist, List.pairwise_singleton _ _, fun e he e' he' => ?_⟩)
  · rcases List.mem_append.mp he with he | he
    · exact hs.carries e (List.mem_filter.mp he).1
    · exact ⟨bytes, List.mem_singleton.mp he ▸ hd⟩
  · rw [List.mem_singleton.mp he']
    obtain ⟨hmem, hterm⟩ := List.mem_filter.mp he
    obtain ⟨b, hb⟩ := hs.carries e hmem
    intro heq
    obtain rfl := (hb.values_eq_iff hd).mp heq
    rw [hb.hasTerm_iff.mpr rfl] at hterm
    contradiction

end Sound

/-! ## Bringing one row up to date -/

section Reindex

variable {s : Service ScanIndex} {bytes : Bytes} {m : Mutation} {time : Int64} {r : Row}

/-- The documents after a row was brought up to date. -/
def reindexed (s : Service ScanIndex) (bytes : Bytes) (m : Mutation) (time : Int64) :
    List Document :=
  match s.store.liveRow? (s.store.place bytes) time with
  | some r =>
    match s.document r with
    | .ok d => s.index.without (s.store.place bytes).term ++ [d]
    | .error _ => s.index.documents
  | none =>
    if m.isDeletion then s.index.without (s.store.place bytes).term else s.index.documents

/-- The row as of the time is indexed if it is live and has a document. -/
theorem reindex_of_document (hs : s.Opened)
    (hrow : s.store.liveRow? (s.store.place bytes) time = some r) {d : Document}
    (hd : s.document r = .ok d) :
    s.reindex bytes m time = .ok (.upserted,
      s.withDocuments (s.index.without (s.store.place bytes).term ++ [d])) := by
  rw [reindex, RowIndex.outcome, run_reindexInPlace_of_document hrow hd, ScanIndex.run_upsert,
    check_document hs.declared hd]
  rfl

/-- A row without a document is refused. -/
theorem reindex_of_refused (hrow : s.store.liveRow? (s.store.place bytes) time = some r)
    {e : Error} (hd : s.document r = .error e) : s.reindex bytes m time = .error e := by
  rw [reindex, RowIndex.outcome, run_reindexInPlace_of_refused hrow hd]

/-- The document of a row that is gone is removed by a deletion alone. -/
theorem reindex_of_gone (hrow : s.store.liveRow? (s.store.place bytes) time = none) :
    s.reindex bytes m time =
      if m.isDeletion then
        .ok (.deleted, s.withDocuments (s.index.without (s.store.place bytes).term))
      else .ok (.skipped, s) := by
  rw [reindex, RowIndex.outcome, run_reindexInPlace_of_gone hrow, ScanIndex.run_delete]
  cases m.isDeletion <;> rfl

/-- **Bringing a row up to date changes the documents of the index alone.** -/
theorem call_reindex (hs : s.Opened) :
    s.call (.reindex bytes m time) = s.withDocuments (s.reindexed bytes m time) := by
  rw [call, reindexed]
  split
  · rename_i r hrow
    split
    · rename_i d hd
      rw [reindex_of_document hs hrow hd]
      rfl
    · rename_i e hd
      rw [reindex_of_refused hrow hd]
      rfl
  · rename_i hrow
    rw [reindex_of_gone hrow]
    split <;> rfl

theorem store_call_reindex (hs : s.Opened) : (s.call (.reindex bytes m time)).store = s.store := by
  rw [call_reindex hs]
  rfl

end Reindex

/-! ## What every call keeps -/

/-- Steps that keep a service sound and leave its definition alone do so one after another. -/
theorem Sound.foldl {α : Type} {step : Service ScanIndex → α → Service ScanIndex} {l : List α}
    (hstep : ∀ s a, s.Sound → a ∈ l → (step s a).Sound ∧ s.Agrees (step s a))
    {s : Service ScanIndex} (hs : s.Sound) :
    (l.foldl step s).Sound ∧ s.Agrees (l.foldl step s) := by
  induction l generalizing s with
  | nil => exact ⟨hs, .refl s⟩
  | cons a rest ih =>
    obtain ⟨hsound, hagrees⟩ := hstep s a hs List.mem_cons_self
    obtain ⟨hsound', hagrees'⟩ :=
      ih (fun s b hs hb => hstep s b hs (List.mem_cons_of_mem _ hb)) hsound
    exact ⟨hsound', hagrees.trans hagrees'⟩

theorem Sound.reindex {s : Service ScanIndex} (hs : s.Sound) (bytes : Bytes) (m : Mutation)
    (time : Int64) :
    (s.call (.reindex bytes m time)).Sound ∧ s.Agrees (s.call (.reindex bytes m time)) := by
  rw [call_reindex hs.toOpened]
  refine ⟨?_, s.agrees_withDocuments _⟩
  rw [reindexed]
  split
  · rename_i r hrow
    split
    · rename_i d hd
      exact hs.replace (hs.carries_document (Store.key_of_liveRow? hrow) hd)
    · exact hs
  · split
    · exact hs.without _
    · exact hs

/-- Every call keeps a service sound, and leaves its definition alone. -/
theorem Sound.call {s : Service ScanIndex} (hs : s.Sound) (c : Call) :
    (s.call c).Sound ∧ s.Agrees (s.call c) := by
  cases c with
  | apply bytes m =>
    have hagrees : s.Agrees (s.apply bytes m) := ⟨rfl, rfl, rfl, rfl, rfl⟩
    exact ⟨{ hs.toOpened.of_agrees hagrees (hs.placed.apply bytes m) with
      carries := hs.carries, distinct := hs.distinct }, hagrees⟩
  | purge bytes =>
    have hagrees : s.Agrees (s.purge bytes) := ⟨rfl, rfl, rfl, rfl, rfl⟩
    exact ⟨{ hs.toOpened.of_agrees hagrees (hs.placed.purge bytes) with
      carries := hs.carries, distinct := hs.distinct }, hagrees⟩
  | reindex bytes m time => exact hs.reindex bytes m time
  | reindexAll items time =>
    rw [call_reindexAll]
    refine Sound.foldl (fun s c hs hc => ?_) hs
    obtain ⟨item, -, rfl⟩ := List.mem_map.mp hc
    exact hs.reindex item.1 item.2 time
  | remove key => exact ⟨hs.without key.term, s.agrees_withDocuments _⟩

/-- **Every sequence of calls keeps a service sound**, and leaves its definition alone. -/
theorem Sound.run {s : Service ScanIndex} (hs : s.Sound) (calls : List Call) :
    (s.run calls).Sound ∧ s.Agrees (s.run calls) :=
  Sound.foldl (fun _ c hs _ => hs.call c) hs

/-! ## The documents of one key -/

/-- The documents that the term of a key identifies. -/
def documentsOf (s : Service ScanIndex) (bytes : Bytes) : List Document :=
  s.index.documents.filter (·.hasTerm (s.store.place bytes).term)

/-- An opened service has no documents yet. -/
theorem documentsOf_openScan {d : Definition} {t : Table} {store : Store} {s : Service ScanIndex}
    (h : openScan d t store = .ok s) (bytes : Bytes) : s.documentsOf bytes = [] := by
  obtain ⟨-, index, hindex, rfl⟩ := openWith_eq_ok_iff.mp h
  obtain ⟨declared, -, rfl⟩ := map_eq_ok_iff.mp hindex
  rfl

/-- Removing the documents of a key leaves those of other keys. -/
theorem Sound.documentsOf_without {s : Service ScanIndex} (hs : s.Sound) (bytes b : Bytes) :
    (s.withDocuments (s.index.without (s.store.place bytes).term)).documentsOf b =
      if b = bytes then [] else s.documentsOf b := by
  change (s.index.without (s.store.place bytes).term).filter
    (·.hasTerm (s.store.place b).term) = _
  rw [ScanIndex.without, List.filter_filter]
  split
  · rename_i heq
    subst heq
    refine List.filter_eq_nil_iff.mpr fun d _ => ?_
    cases d.hasTerm (s.store.place b).term <;> decide
  · rename_i hne
    refine List.filter_congr fun d hd => ?_
    cases hterm : d.hasTerm (s.store.place b).term with
    | false => rfl
    | true =>
      have hcarries := (hs.hasTerm_iff hd).mp hterm
      have hother : d.hasTerm (s.store.place bytes).term = false :=
        Bool.eq_false_iff.mpr fun h => hne (hcarries.hasTerm_iff.mp h).symm
      rw [hother]
      rfl

theorem documentsOf_append (s : Service ScanIndex) (documents : List Document) (d : Document)
    (bytes : Bytes) :
    (s.withDocuments (documents ++ [d])).documentsOf bytes =
      (s.withDocuments documents).documentsOf bytes ++
        if d.hasTerm (s.store.place bytes).term then [d] else [] := by
  change (documents ++ [d]).filter (·.hasTerm (s.store.place bytes).term) =
    documents.filter (·.hasTerm (s.store.place bytes).term) ++ _
  rw [List.filter_append, List.filter_cons, List.filter_nil]

/-- Replacing the documents of a key by one that carries it leaves those of other keys. -/
theorem Sound.documentsOf_replace {s : Service ScanIndex} (hs : s.Sound) {d : Document}
    {bytes : Bytes} (hd : d.Carries s.store.partitioner bytes) (b : Bytes) :
    (s.withDocuments (s.index.without (s.store.place bytes).term ++ [d])).documentsOf b =
      if b = bytes then [d] else s.documentsOf b := by
  rw [documentsOf_append, hs.documentsOf_without, ite_congr (propext hd.hasTerm_iff)
    (fun _ => rfl) (fun _ => rfl), Store.bytes_place]
  by_cases h : b = bytes
  · rw [if_pos h, if_pos h, if_pos h, List.nil_append]
  · rw [if_neg h, if_neg h, if_neg h, List.append_nil]

/-- **Bringing a row up to date settles the documents of its own key.** -/
theorem Sound.documentsOf_reindex {s : Service ScanIndex} (hs : s.Sound) (bytes : Bytes)
    (m : Mutation) (time : Int64) (b : Bytes) :
    (s.call (.reindex bytes m time)).documentsOf b =
      if b = bytes then
        match s.store.liveRow? (s.store.place bytes) time with
        | some r =>
          match s.document r with
          | .ok d => [d]
          | .error _ => s.documentsOf bytes
        | none => if m.isDeletion then [] else s.documentsOf bytes
      else s.documentsOf b := by
  have hsame : (s.withDocuments s.index.documents).documentsOf b =
      if b = bytes then s.documentsOf bytes else s.documentsOf b := by
    split
    · rename_i heq
      subst heq
      rfl
    · rfl
  rw [call_reindex hs.toOpened, reindexed]
  split
  · rename_i r hrow
    split
    · rename_i d hd
      exact hs.documentsOf_replace (hs.carries_document (Store.key_of_liveRow? hrow) hd) b
    · exact hsame
  · split
    · exact hs.documentsOf_without bytes b
    · exact hsame

/-! ## A small service

One column of whole numbers is mapped, and keys are their own tokens. -/

/-- A definition with one mapped column. -/
def sampleDefinition : Definition := { schema := .ofList [⟨"n", { type := .long }⟩] }

/-- A table with one column. -/
def sampleTable : Table := { name := "t", columns := [⟨"n", .int⟩] }

/-- The service of the definition, over an empty store. -/
def sample : Service ScanIndex where
  table := sampleTable
  column := "score"
  schema := sampleDefinition.schema
  store := { partitioner := .byteOrdered }
  index := { declared := NameMap.ofList (specs sampleDefinition .byteOrdered) }

theorem openScan_sample :
    openScan sampleDefinition sampleTable { partitioner := .byteOrdered } = .ok sample := rfl

/-- A write of one number. -/
def sampleWrite (n : Int32) (time : Int64) : Mutation := { cells := [⟨"n", some (.int n), time⟩] }

end RowIndex.Service
