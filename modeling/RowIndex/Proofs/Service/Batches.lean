import Mathlib.Data.List.Induction
import RowIndex.Proofs.Outcomes
import RowIndex.Proofs.Service.Run

/-!
# Proofs/Service/Batches — a batch has no order, and can be repeated

What a batch does with an item depends on the store, and not on the documents that earlier items
left behind (`Opened.outcome_withDocuments`).  So its report counts the outcomes of its items
(`Opened.report_reindexAll`), and the documents of a key after it depend only on which items it has
(`Sound.documentsOf_reindexAll`).  Both are the same for every order of the items and for a second
run (`reindexAll_settles`).
-/

namespace RowIndex

/-! ## Reports -/

namespace BatchReport

/-- What a report says of a row that failed. -/
def failure? (bytes : Bytes) : Except Error Outcome → Option (Bytes × Error)
  | .ok _ => none
  | .error e => some (bytes, e)

/-- The report on rows with given outcomes. -/
def ofOutcomes (rows : List (Bytes × Except Error Outcome)) : BatchReport where
  upserted := rows.countP (·.2 = .ok .upserted)
  deleted := rows.countP (·.2 = .ok .deleted)
  skipped := rows.countP (·.2 = .ok .skipped)
  failures := rows.filterMap fun row => failure? row.1 row.2

/-- Rows are counted in whatever order they are reported. -/
theorem foldl_add (rows : List (Bytes × Except Error Outcome)) :
    rows.foldl (fun report row => report.add row.1 row.2) {} = ofOutcomes rows := by
  induction rows using List.reverseRecOn with
  | nil => rfl
  | append_singleton rows row ih =>
    rw [List.foldl_append, ih, List.foldl_cons, List.foldl_nil]
    simp only [ofOutcomes, List.countP_append, List.countP_singleton, List.filterMap_append]
    rcases row with ⟨bytes, (e | (_ | _ | _))⟩ <;> simp [add, failure?]

/-- **Every row is counted once**, as a success or as a failure. -/
theorem total_ofOutcomes (rows : List (Bytes × Except Error Outcome)) :
    (ofOutcomes rows).upserted + (ofOutcomes rows).deleted + (ofOutcomes rows).skipped +
      (ofOutcomes rows).failures.length = rows.length := by
  induction rows with
  | nil => rfl
  | cons row rest ih =>
    have hcons : (ofOutcomes (row :: rest)).upserted + (ofOutcomes (row :: rest)).deleted +
        (ofOutcomes (row :: rest)).skipped + (ofOutcomes (row :: rest)).failures.length =
        (ofOutcomes rest).upserted + (ofOutcomes rest).deleted + (ofOutcomes rest).skipped +
          (ofOutcomes rest).failures.length + 1 := by
      simp only [ofOutcomes, List.countP_cons, List.filterMap_cons]
      rcases row with ⟨bytes, (e | (_ | _ | _))⟩ <;> simp [failure?] <;> omega
    rw [hcons, ih, List.length_cons]

end BatchReport

namespace Service

variable {s : Service ScanIndex}

/-! ## The outcome of an item -/

/-- The outcome of an item is read off the store. -/
theorem Opened.outcome_eq (hs : s.Opened) (time : Int64) (item : Bytes × Mutation) :
    s.outcome time item =
      match s.store.liveRow? (s.store.place item.1) time with
      | some r => (s.document r).map fun _ => .upserted
      | none => .ok (if item.2.isDeletion then .deleted else .skipped) := by
  rw [outcome]
  split
  · rename_i r hrow
    cases hd : s.document r with
    | ok d =>
      rw [reindex_of_document hs hrow hd]
      rfl
    | error e =>
      rw [reindex_of_refused hrow hd]
      rfl
  · rename_i hrow
    rw [reindex_of_gone hrow]
    split <;> rfl

theorem Opened.withDocuments (hs : s.Opened) (documents : List Document) :
    (s.withDocuments documents).Opened :=
  hs.of_agrees (s.agrees_withDocuments documents) hs.placed

/-- **The outcome of an item does not depend on the documents.** -/
theorem Opened.outcome_withDocuments (hs : s.Opened) (documents : List Document) (time : Int64)
    (item : Bytes × Mutation) :
    (s.withDocuments documents).outcome time item = s.outcome time item := by
  rw [hs.outcome_eq, (hs.withDocuments documents).outcome_eq]
  rfl

/-! ## The report of a batch -/

/-- A batch changes the documents of the index alone. -/
theorem Opened.exists_reindexAll (hs : s.Opened) (items : List (Bytes × Mutation))
    (time : Int64) : ∃ documents, (s.reindexAll items time).2 = s.withDocuments documents := by
  change ∃ documents, s.call (.reindexAll items time) = _
  rw [call_reindexAll]
  induction items generalizing s with
  | nil => exact ⟨s.index.documents, rfl⟩
  | cons item rest ih =>
    rw [List.map_cons, run_cons, call_reindex hs]
    exact ih (hs.withDocuments _)

/-- **At its turn, an item has the outcome that it has alone.** -/
theorem Opened.outcome_reindexAll (hs : s.Opened) (items : List (Bytes × Mutation))
    (time : Int64) (item : Bytes × Mutation) :
    (s.reindexAll items time).2.outcome time item = s.outcome time item := by
  obtain ⟨documents, h⟩ := hs.exists_reindexAll items time
  rw [h, hs.outcome_withDocuments]

/-- **The report of a batch is the report on the outcomes of its items.** -/
theorem Opened.report_reindexAll (hs : s.Opened) (items : List (Bytes × Mutation))
    (time : Int64) :
    (s.reindexAll items time).1 =
      .ofOutcomes (items.map fun item => (item.1, s.outcome time item)) := by
  rw [← BatchReport.foldl_add, reindexAll]
  generalize ({} : BatchReport) = report
  induction items generalizing report s with
  | nil => rfl
  | cons item rest ih =>
    rw [List.foldl_cons, List.map_cons, List.foldl_cons, reindexStep_eq, call_reindex hs,
      ih (hs.withDocuments _)]
    simp only [hs.outcome_withDocuments]

/-! ## A batch without its failures -/

/-- Bring a list of rows up to date, stopping at the first that fails. -/
def reindexEach (s : Service ScanIndex) (items : List (Bytes × Mutation)) (time : Int64) :
    Except Error (Service ScanIndex) :=
  items.foldlM (fun s item => (s.reindex item.1 item.2 time).map Prod.snd) s

/-- **A batch does what its items do that do not fail**, one after another. -/
theorem Opened.reindexEach_filter (hs : s.Opened) (items : List (Bytes × Mutation))
    (time : Int64) :
    s.reindexEach (items.filter fun item => (s.outcome time item).isOk) time =
      .ok (s.reindexAll items time).2 := by
  change _ = Except.ok (s.call (.reindexAll items time))
  rw [call_reindexAll]
  induction items generalizing s with
  | nil => rfl
  | cons item rest ih =>
    have hrest := ih (hs.withDocuments (s.reindexed item.1 item.2 time))
    simp only [hs.outcome_withDocuments] at hrest
    rw [← call_reindex hs] at hrest
    rw [List.map_cons, run_cons, ← hrest, List.filter_cons, outcome, call]
    cases h : s.reindex item.1 item.2 time with
    | ok r =>
      rw [if_pos (by rfl), reindexEach, List.foldlM_cons, h]
      rfl
    | error e =>
      rw [if_neg (by exact Bool.false_ne_true)]
      rfl

/-! ## The documents after a batch -/

/-- The documents that an item leaves to its key, if it settles them. -/
def settles? (s : Service ScanIndex) (time : Int64) (item : Bytes × Mutation) :
    Option (List Document) :=
  match s.store.liveRow? (s.store.place item.1) time with
  | some r => (s.document r).toOption.map ([·])
  | none => if item.2.isDeletion then some [] else none

/-- Items of one key that settle its documents leave it the same. -/
theorem settles?_unique {time : Int64} {item item' : Bytes × Mutation} (hkey : item'.1 = item.1)
    {documents documents' : List Document} (h : s.settles? time item = some documents)
    (h' : s.settles? time item' = some documents') : documents' = documents := by
  rw [settles?] at h h'
  rw [hkey] at h'
  split at h
  · rename_i r hrow
    rw [hrow] at h'
    exact Option.some.inj (h'.symm.trans h)
  · rename_i hrow
    rw [hrow] at h'
    have hnil := Option.some.inj (Option.ite_none_right_eq_some.mp h).2
    have hnil' := Option.some.inj (Option.ite_none_right_eq_some.mp h').2
    exact hnil'.symm.trans hnil

theorem Sound.documentsOf_call_item (hs : s.Sound) (time : Int64) (item : Bytes × Mutation)
    (bytes : Bytes) :
    (s.call (.reindex item.1 item.2 time)).documentsOf bytes =
      if bytes = item.1 then (s.settles? time item).getD (s.documentsOf bytes)
      else s.documentsOf bytes := by
  rw [hs.documentsOf_reindex, settles?]
  split
  · rename_i h
    subst h
    cases s.store.liveRow? (s.store.place item.1) time with
    | some r => cases hd : s.document r <;> simp [hd, Except.toOption]
    | none => cases item.2.isDeletion <;> rfl
  · rfl

/-- A batch ends with its last item. -/
theorem reindexAll_append_singleton (s : Service ScanIndex) (items : List (Bytes × Mutation))
    (item : Bytes × Mutation) (time : Int64) :
    (s.reindexAll (items ++ [item]) time).2 =
      (s.reindexAll items time).2.call (.reindex item.1 item.2 time) := by
  rw [reindexAll, List.foldl_append, List.foldl_cons, List.foldl_nil, reindexStep_eq]
  rfl

theorem Sound.reindexAll (hs : s.Sound) (items : List (Bytes × Mutation)) (time : Int64) :
    (s.reindexAll items time).2.Sound ∧ s.Agrees (s.reindexAll items time).2 :=
  hs.call (.reindexAll items time)

/-- What an item settles is the same after any batch. -/
theorem Opened.settles?_reindexAll (hs : s.Opened) (items : List (Bytes × Mutation))
    (time : Int64) (item : Bytes × Mutation) :
    (s.reindexAll items time).2.settles? time item = s.settles? time item := by
  obtain ⟨documents, h⟩ := hs.exists_reindexAll items time
  rw [h]
  rfl

/-- **A batch leaves to a key what any of its items settles.** -/
theorem Sound.documentsOf_reindexAll (hs : s.Sound) {items : List (Bytes × Mutation)}
    {time : Int64} {item : Bytes × Mutation} (hitem : item ∈ items) {documents : List Document}
    (h : s.settles? time item = some documents) :
    (s.reindexAll items time).2.documentsOf item.1 = documents := by
  -- From the end: the last item that settles the key decides, and all that settle it agree.
  induction items using List.reverseRecOn with
  | nil => exact (List.not_mem_nil hitem).elim
  | append_singleton items last ih =>
    rw [reindexAll_append_singleton, (hs.reindexAll items time).1.documentsOf_call_item,
      hs.settles?_reindexAll]
    rcases List.mem_append.mp hitem with hmem | hmem
    · split
      · rename_i hkey
        cases hlast : s.settles? time last with
        | none => exact ih hmem
        | some documents' => exact settles?_unique hkey.symm h hlast
      · exact ih hmem
    · obtain rfl := List.mem_singleton.mp hmem
      rw [if_pos rfl, h]
      rfl

/-- A key of which no item settles anything keeps its documents. -/
theorem Sound.documentsOf_reindexAll_of_none (hs : s.Sound) {items : List (Bytes × Mutation)}
    {time : Int64} {bytes : Bytes}
    (h : ∀ item ∈ items, item.1 = bytes → s.settles? time item = none) :
    (s.reindexAll items time).2.documentsOf bytes = s.documentsOf bytes := by
  induction items using List.reverseRecOn with
  | nil => rfl
  | append_singleton items last ih =>
    have hrest := ih fun item hitem => h item (List.mem_append_left _ hitem)
    rw [reindexAll_append_singleton, (hs.reindexAll items time).1.documentsOf_call_item,
      hs.settles?_reindexAll]
    split
    · rename_i hkey
      rw [h last (List.mem_append_right _ List.mem_cons_self) hkey.symm]
      exact hrest
    · exact hrest

/-- Batches of the same items leave every key the same documents. -/
theorem Sound.documentsOf_reindexAll_congr (hs : s.Sound) {items items' : List (Bytes × Mutation)}
    (h : ∀ item, item ∈ items' ↔ item ∈ items) (time : Int64) (bytes : Bytes) :
    (s.reindexAll items' time).2.documentsOf bytes =
      (s.reindexAll items time).2.documentsOf bytes := by
  by_cases hsome : ∃ item ∈ items, item.1 = bytes ∧ ∃ documents,
      s.settles? time item = some documents
  · obtain ⟨item, hitem, rfl, documents, hdocuments⟩ := hsome
    rw [hs.documentsOf_reindexAll hitem hdocuments,
      hs.documentsOf_reindexAll ((h item).mpr hitem) hdocuments]
  · have hnone (item : Bytes × Mutation) (hitem : item ∈ items) (hkey : item.1 = bytes) :
        s.settles? time item = none :=
      Option.eq_none_iff_forall_ne_some.mpr fun documents hdocuments =>
        hsome ⟨item, hitem, hkey, documents, hdocuments⟩
    rw [hs.documentsOf_reindexAll_of_none hnone,
      hs.documentsOf_reindexAll_of_none fun item hitem => hnone item ((h item).mp hitem)]

/-- Every document of a sound service is the document of a key. -/
theorem Sound.mem_documents_iff (hs : s.Sound) {d : Document} :
    d ∈ s.index.documents ↔ ∃ bytes, d ∈ s.documentsOf bytes := by
  constructor
  · intro hd
    obtain ⟨bytes, hcarries⟩ := hs.carries d hd
    exact ⟨bytes, List.mem_filter.mpr ⟨hd, (hs.hasTerm_iff hd).mpr hcarries⟩⟩
  · rintro ⟨bytes, hd⟩
    exact (List.mem_filter.mp hd).1

theorem Sound.nodup_documents (hs : s.Sound) : s.index.documents.Nodup :=
  hs.distinct.imp fun hne heq => hne (congrArg (·.values keyField) heq)

/-- **Batches of the same items leave the same documents**, whatever their order and however often
an item occurs. -/
theorem Sound.perm_reindexAll (hs : s.Sound) {items items' : List (Bytes × Mutation)}
    (h : ∀ item, item ∈ items' ↔ item ∈ items) (time : Int64) :
    (s.reindexAll items' time).2.index.documents.Perm
      (s.reindexAll items time).2.index.documents := by
  have hs₁ := (hs.reindexAll items time).1
  have hs₂ := (hs.reindexAll items' time).1
  refine (List.perm_ext_iff_of_nodup hs₂.nodup_documents hs₁.nodup_documents).mpr fun d => ?_
  simp only [hs₁.mem_documents_iff, hs₂.mem_documents_iff, hs.documentsOf_reindexAll_congr h time]

/-- A batch that is run again is a batch of its items twice. -/
theorem reindexAll_twice (s : Service ScanIndex) (items : List (Bytes × Mutation))
    (time : Int64) :
    ((s.reindexAll items time).2.reindexAll items time).2 =
      (s.reindexAll (items ++ items) time).2 := by
  change (s.call (.reindexAll items time)).call (.reindexAll items time) =
    s.call (.reindexAll (items ++ items) time)
  rw [call_reindexAll, call_reindexAll, call_reindexAll, List.map_append]
  exact List.foldl_append.symm

/-! ## Order and repetition -/

/-- **A batch has no order, and can be repeated.**  In every state that calls lead to, a batch
counts each of its items once, by the outcome that it has alone and at its turn, its failures in the
order of the items; it does what its items do that do not fail; with its items in another order it
has the same counts, the same failures and the same documents, and so it has when it is run
again. -/
theorem reindexAll_settles {d : Definition} {t : Table} {p : Partitioner}
    {edits : List Store.Edit} {s₀ : Service ScanIndex}
    (hopen : openScan d t (.ofEdits p edits) = .ok s₀) (calls : List Call)
    (items : List (Bytes × Mutation)) (time : Int64) :
    let s := s₀.run calls
    let report := (s.reindexAll items time).1
    let s' := (s.reindexAll items time).2
    (∀ before item, (s.reindexAll before time).2.outcome time item = s.outcome time item) ∧
    (report.upserted + report.deleted + report.skipped + report.failures.length = items.length ∧
      report.failures = items.filterMap fun item =>
        BatchReport.failure? item.1 (s.outcome time item)) ∧
    s.reindexEach (items.filter fun item => (s.outcome time item).isOk) time = .ok s' ∧
    (∀ items', items'.Perm items →
      let report' := (s.reindexAll items' time).1
      (report'.upserted = report.upserted ∧ report'.deleted = report.deleted ∧
        report'.skipped = report.skipped) ∧
      report'.failures.Perm report.failures ∧
      (s.reindexAll items' time).2.index.documents.Perm s'.index.documents) ∧
    (s'.reindexAll items time).1 = report ∧
      (s'.reindexAll items time).2.index.documents.Perm s'.index.documents := by
  intro s report s'
  have hs : s.Sound := ((sound_openScan hopen (Store.wellPlaced_ofEdits p edits).2).run calls).1
  have hreport : report = .ofOutcomes (items.map fun item => (item.1, s.outcome time item)) :=
    hs.report_reindexAll items time
  refine ⟨fun before item => hs.outcome_reindexAll before time item, ⟨?_, ?_⟩,
    hs.reindexEach_filter items time, fun items' hperm => ?_, ?_, ?_⟩
  · rw [hreport, BatchReport.total_ofOutcomes, List.length_map]
  · rw [hreport, BatchReport.ofOutcomes, List.filterMap_map]
    rfl
  · intro report'
    have hreport' : report' =
        .ofOutcomes (items'.map fun item => (item.1, s.outcome time item)) :=
      hs.report_reindexAll items' time
    have hrows := hperm.map fun item => (item.1, s.outcome time item)
    rw [hreport, hreport']
    exact ⟨⟨hrows.countP_eq _, hrows.countP_eq _, hrows.countP_eq _⟩, hrows.filterMap _,
      hs.perm_reindexAll (fun item => hperm.mem_iff) time⟩
  · rw [hreport, (hs.reindexAll items time).1.report_reindexAll]
    simp only [hs.outcome_reindexAll]
  · rw [reindexAll_twice]
    exact hs.perm_reindexAll (fun item => by rw [List.mem_append, or_self]) time

/-- A batch with a repeated key, a row that fails, a row that is gone and a key that never was:
turned round and run again, it reports and leaves the same. -/
theorem reindexAll_settles_repeated_key :
    let text : Mutation := { cells := [⟨"n", some (.text "x"), 10⟩] }
    let wipe : Mutation := { deletion := some ⟨20⟩ }
    let edits : List Store.Edit := [.apply [1] (sampleWrite 7 10), .apply [2] text]
    let s₀ := { sample with store := .ofEdits .byteOrdered edits }
    let calls : List Call := [.apply [3] (sampleWrite 8 10), .reindex [3] (sampleWrite 8 10) 10,
      .apply [3] wipe]
    let items : List (Bytes × Mutation) :=
      [([1], wipe), ([2], text), ([3], wipe), ([1], sampleWrite 7 10), ([4], text)]
    openScan sampleDefinition sampleTable (.ofEdits .byteOrdered edits) = .ok s₀ ∧
      (((s₀.run calls).reindexAll items 30).1.upserted = 2 ∧
        ((s₀.run calls).reindexAll items 30).1.deleted = 1 ∧
        ((s₀.run calls).reindexAll items 30).1.skipped = 1 ∧
        ((s₀.run calls).reindexAll items 30).1.failures.map Prod.fst = [[2]]) ∧
      ((s₀.run calls).reindexAll items.reverse 30).1.failures.Perm
        ((s₀.run calls).reindexAll items 30).1.failures ∧
      ((s₀.run calls).reindexAll items.reverse 30).2.index.documents.Perm
        ((s₀.run calls).reindexAll items 30).2.index.documents ∧
      (((s₀.run calls).reindexAll items 30).2.reindexAll items 30).1 =
        ((s₀.run calls).reindexAll items 30).1 := by
  intro text wipe edits s₀ calls items
  have hopen : openScan sampleDefinition sampleTable (.ofEdits .byteOrdered edits) = .ok s₀ :=
    openWith_eq_ok_iff.mpr ⟨rfl, sample.index,
      by rw [(Store.wellPlaced_ofEdits .byteOrdered edits).1]; rfl, rfl⟩
  obtain ⟨-, -, -, horder, hagain, -⟩ := reindexAll_settles hopen calls items 30
  obtain ⟨-, hfailures, hdocuments⟩ := horder items.reverse items.reverse_perm
  refine ⟨hopen, ⟨?_, ?_, ?_, ?_⟩, hfailures, hdocuments, hagain⟩ <;> decide +kernel

end Service

end RowIndex
