import RowIndex.Proofs.Service.Atomicity

/-!
# Proofs/Service/Isolation — no call touches the documents of other keys

A call has the keys whose documents it may change (`Call.keys`).  The documents of all other keys
stay, in their order, through one call (`Sound.documentsOutside_call`) and through any sequence of
calls (`Sound.documentsOutside_run`).  Together with one document per key, and calls that do all of
their changes or none, this is what an index keeps in every state that calls lead to
(`documents_isolated`).
-/

namespace RowIndex

/-- Whether a document carries none of the keys. -/
def Document.isOutside (d : Document) (keys : List Bytes) : Bool :=
  keys.all fun bytes => d.values keyField ≠ [.keyword (Hex.encode bytes)]

theorem Document.Carries.isOutside_iff {d : Document} {p : Partitioner} {bytes : Bytes}
    (h : d.Carries p bytes) {keys : List Bytes} : d.isOutside keys = true ↔ bytes ∉ keys := by
  have hother (b : Bytes) : d.values keyField ≠ [.keyword (Hex.encode b)] ↔ bytes ≠ b := by
    rw [h.key, Ne, List.cons.injEq, and_iff_left rfl, FieldValue.keyword.injEq, Hex.encode_inj]
  rw [isOutside, List.all_eq_true]
  simp only [decide_eq_true_eq, hother]
  exact ⟨fun hall hmem => hall bytes hmem rfl, fun hmem b hb heq => hmem (heq ▸ hb)⟩

namespace Service

/-- The documents that carry none of the keys, in their order. -/
def documentsOutside (s : Service ScanIndex) (keys : List Bytes) : List Document :=
  s.index.documents.filter (·.isOutside keys)

theorem documentsOutside_append {s : Service ScanIndex} {keys : List Bytes}
    {documents : List Document} {d : Document} (hd : ¬d.isOutside keys = true) :
    (s.withDocuments (documents ++ [d])).documentsOutside keys =
      (s.withDocuments documents).documentsOutside keys := by
  change (documents ++ [d]).filter (·.isOutside keys) = documents.filter (·.isOutside keys)
  have hnone : [d].filter (·.isOutside keys) = [] :=
    List.filter_eq_nil_iff.mpr fun e he => List.mem_singleton.mp he ▸ hd
  rw [List.filter_append, hnone, List.append_nil]

namespace Sound

variable {s : Service ScanIndex} {keys : List Bytes}

/-- Removing the documents of a key leaves those of other keys. -/
theorem documentsOutside_without (hs : s.Sound) {key : Key} (hkey : key.bytes ∈ keys) :
    (s.withDocuments (s.index.without key.term)).documentsOutside keys =
      s.documentsOutside keys := by
  change (s.index.without key.term).filter (·.isOutside keys) =
    s.index.documents.filter (·.isOutside keys)
  rw [ScanIndex.without, List.filter_filter]
  refine List.filter_congr fun d hd => ?_
  obtain ⟨b, hb⟩ := hs.carries d hd
  cases hterm : d.hasTerm key.term with
  | false => exact Bool.and_true _
  | true =>
    have hinside : ¬d.isOutside keys = true := fun h =>
      hb.isOutside_iff.mp h (hb.hasTerm_iff.mp hterm ▸ hkey)
    rw [Bool.eq_false_iff.mpr hinside]
    rfl

/-- Bringing a row up to date leaves the documents of other keys. -/
theorem documentsOutside_reindex (hs : s.Sound) {bytes : Bytes} (hbytes : bytes ∈ keys)
    (m : Mutation) (time : Int64) :
    (s.call (.reindex bytes m time)).documentsOutside keys = s.documentsOutside keys := by
  have hwithout : (s.withDocuments (s.index.without (s.store.place bytes).term)).documentsOutside
      keys = s.documentsOutside keys := hs.documentsOutside_without hbytes
  rw [call_reindex hs.toOpened, reindexed]
  split
  · rename_i r hrow
    split
    · rename_i d hd
      have hcarries := hs.carries_document (Store.key_of_liveRow? hrow) hd
      have hinside : ¬d.isOutside keys = true := fun h => hcarries.isOutside_iff.mp h hbytes
      rw [documentsOutside_append hinside, hwithout]
    · rfl
  · split
    · exact hwithout
    · rfl

/-- Calls that leave the documents of other keys do so one after another. -/
theorem documentsOutside_foldl {calls : List Call}
    (hcall : ∀ (s : Service ScanIndex) (c : Call), s.Sound → c ∈ calls →
      (s.call c).documentsOutside keys = s.documentsOutside keys)
    (hs : s.Sound) : (s.run calls).documentsOutside keys = s.documentsOutside keys := by
  induction calls generalizing s with
  | nil => rfl
  | cons c rest ih =>
    have hrest := ih (fun s c hs hc => hcall s c hs (List.mem_cons_of_mem _ hc)) (hs.call c).1
    rw [run_cons, hrest, hcall s c hs List.mem_cons_self]

/-- **A call leaves the documents of all keys but its own**, and their order. -/
theorem documentsOutside_call (hs : s.Sound) {c : Call} (hkeys : c.keys ⊆ keys) :
    (s.call c).documentsOutside keys = s.documentsOutside keys := by
  cases c with
  | apply bytes m => rfl
  | purge bytes => rfl
  | reindex bytes m time => exact hs.documentsOutside_reindex (hkeys List.mem_cons_self) m time
  | reindexAll items time =>
    rw [call_reindexAll]
    refine documentsOutside_foldl (fun s c hs hc => ?_) hs
    obtain ⟨item, hitem, rfl⟩ := List.mem_map.mp hc
    exact hs.documentsOutside_reindex (hkeys (List.mem_map_of_mem hitem)) item.2 time
  | remove key => exact hs.documentsOutside_without (hkeys List.mem_cons_self)

/-- **Calls leave the documents of all keys but their own**, and their order. -/
theorem documentsOutside_run (hs : s.Sound) {calls : List Call}
    (hkeys : ∀ c ∈ calls, c.keys ⊆ keys) :
    (s.run calls).documentsOutside keys = s.documentsOutside keys :=
  documentsOutside_foldl (fun _ _ hs hc => hs.documentsOutside_call (hkeys _ hc)) hs

end Sound

/-- **One document per key, and no call touches another key's.**  In every state that calls lead to,
every document carries one key and its token, no two the same key; a further call leaves the
documents of other keys in their order, and performed in place it ends as the call says, or fails
and has changed nothing. -/
theorem documents_isolated {d : Definition} {t : Table} {p : Partitioner} {s₀ : Service ScanIndex}
    (hopen : openScan d t { partitioner := p } = .ok s₀) (calls : List Call) :
    let s := s₀.run calls
    (∀ doc ∈ s.index.documents, ∃ bytes, doc.Carries p bytes) ∧
    (s.index.documents.Pairwise fun doc other => doc.values keyField ≠ other.values keyField) ∧
    ∀ c : Call, (s.call c).documentsOutside c.keys = s.documentsOutside c.keys ∧
      ((perform c).run s = .ok () (s.call c) ∨
        ∃ e, (perform c).run s = .error e s ∧ s.call c = s) := by
  intro s
  obtain ⟨hs, hagrees⟩ := (sound_openScan hopen (Store.wellPlaced_empty p)).run calls
  have hp : s.store.partitioner = p := by rw [hagrees.partitioner, store_openScan hopen]
  refine ⟨fun doc hdoc => ?_, hs.distinct, fun c => ?_⟩
  · obtain ⟨bytes, hcarries⟩ := hs.carries doc hdoc
    exact ⟨bytes, hp ▸ hcarries⟩
  · exact ⟨hs.documentsOutside_call (List.Subset.refl _), s.run_perform c⟩

/-- A write of a text where a number is mapped: the row has no document, the call fails, and the
document of the row before that write stays beside the other one. -/
theorem documents_isolated_after_failure :
    let text : Mutation := { cells := [⟨"n", some (.text "x"), 20⟩] }
    let calls : List Call := [.apply [1] (sampleWrite 7 10), .reindex [1] (sampleWrite 7 10) 10,
      .apply [2] (sampleWrite 8 10), .reindex [2] (sampleWrite 8 10) 10, .apply [1] text]
    let s := sample.run calls
    let c : Call := .reindex [1] text 20
    openScan sampleDefinition sampleTable { partitioner := .byteOrdered } = .ok sample ∧
      s.index.documents.length = 2 ∧ (s.documentsOutside c.keys).length = 1 ∧
      (s.call c).documentsOutside c.keys = s.documentsOutside c.keys ∧
      ∃ e, (perform c).run s = .error e s ∧ s.call c = s := by
  intro text calls s c
  have hall := documents_isolated openScan_sample calls
  have hfails : ((perform c).run s matches .error ..) = true := by decide +kernel
  refine ⟨openScan_sample, by decide +kernel, by decide +kernel, (hall.2.2 c).1, ?_⟩
  rcases (hall.2.2 c).2 with hok | herror
  · rw [hok] at hfails
    contradiction
  · exact herror

end Service

end RowIndex
