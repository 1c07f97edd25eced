import RowIndex.Proofs.Index.Mirrors
import RowIndex.Proofs.Service.Atomicity

/-!
# Proofs/Service/Replicas — a service over either index, given the same calls

    scanned    ──call──▸ scanned
       ‖                    ‖
    inverted  ──call──▸ inverted

A service over the inverted index that commits every change is a replica of one over the scanned
index if their definitions and stores are the same and the index of one stands for that of the
other.  The documents of rows pass the check of either index, and the key field can be looked for in
both.  So, if the engine publishes what it is told and can find the keys, a call succeeds on both
sides or on neither (`Replica.act`), and a replica is kept by every sequence of calls
(`Replica.actAll`).
-/

namespace RowIndex

/-! ## Keys that the engine finds -/

/-- The greatest length of a key whose text the engine takes in. -/
def Key.maxLength : Nat := IndexTerm.maxLength / 2

/-- The engine can find the text of a key that is short enough. -/
theorem Key.fits_term {key : Key} (h : key.bytes.length ≤ maxLength) : key.term.Fits := by
  change (Hex.utf8 (Hex.encode key.bytes)).length ≤ IndexTerm.maxLength
  rw [Hex.length_utf8_encode]
  rw [maxLength] at h
  omega

namespace Service

open SearchIndex

/-- A call for keys that the engine can find. -/
def Call.Fits (c : Call) : Prop := ∀ bytes ∈ c.keys, bytes.length ≤ Key.maxLength

instance : DecidablePred Call.Fits := fun c =>
  inferInstanceAs (Decidable (∀ bytes ∈ c.keys, bytes.length ≤ Key.maxLength))

/-! ## Calls over any index -/

section Calls

variable {ι : Type} [SearchIndex ι]

/-- The service after a call, whether it succeeds or fails. -/
def act (s : Service ι) (c : Call) : Service ι := finalState (perform c) s

/-- The service after a list of calls. -/
def actAll (s : Service ι) (calls : List Call) : Service ι := calls.foldl act s

theorem act_reindex (s : Service ι) (bytes : Bytes) (m : Mutation) (time : Int64) :
    s.act (.reindex bytes m time) = finalState (reindexInPlace bytes m time) s := by
  rw [act, finalState, finalState, perform, EStateM.run_bind]
  cases (reindexInPlace bytes m time).run s <;> rfl

/-- One step of a batch brings its row up to date. -/
theorem snd_reindexStep (time : Int64) (state : BatchReport × Service ι) (item : Bytes × Mutation) :
    (reindexStep time state item).2 = state.2.act (.reindex item.1 item.2 time) := by
  rw [act_reindex, reindexStep, finalState]
  cases (reindexInPlace item.1 item.2 time).run state.2 <;> rfl

/-- A batch is its rows one after another. -/
theorem act_reindexAll (s : Service ι) (items : List (Bytes × Mutation)) (time : Int64) :
    s.act (.reindexAll items time) =
      s.actAll (items.map fun item => .reindex item.1 item.2 time) := by
  have hfold (state : BatchReport × Service ι) :
      (items.foldl (reindexStep time) state).2 =
        state.2.actAll (items.map fun item => .reindex item.1 item.2 time) := by
    induction items generalizing state with
    | nil => rfl
    | cons item rest ih =>
      rw [List.foldl_cons, ih, snd_reindexStep]
      rfl
  exact hfold ({}, s)

end Calls

theorem act_eq_call (s : Service ScanIndex) (c : Call) : s.act c = s.call c := by
  rw [act, finalState]
  rcases s.run_perform c with hok | ⟨e, herror, hsame⟩
  · rw [hok]
  · rw [herror, hsame]

theorem actAll_eq_run (s : Service ScanIndex) (calls : List Call) :
    s.actAll calls = s.run calls := by
  rw [actAll, run, funext fun s => funext fun c => act_eq_call s c]

/-- A service over the inverted index. -/
def openInverted (engine : Engine) (d : Definition) (t : Table) (store : Store) :
    Except Error (Service InvertedIndex) :=
  openWith (fun settings specs => InvertedIndex.openWith settings none engine specs) d t store

/-! ## Replicas -/

/-- A service over the inverted index that shows what one over the scanned index holds, with an
engine that publishes what it is told. -/
structure Replica (s : Service ScanIndex) (s' : Service InvertedIndex) : Prop where
  table : s'.table = s.table
  column : s'.column = s.column
  schema : s'.schema = s.schema
  store : s'.store = s.store
  autoCommit : s'.index.autoCommit = true
  takesIn : s'.index.engine.TakesIn
  publishes : s'.index.engine.Publishes
  mirrors : Mirrors s'.index s.index s.index

/-- **Services that are opened alike are replicas.** -/
theorem replica_open {d : Definition} {t : Table} {store : Store} {engine : Engine}
    (hauto : d.settings.autoCommit = true) (htakes : engine.TakesIn) (hpublishes : engine.Publishes)
    {s : Service ScanIndex} {s' : Service InvertedIndex} (hopen : openScan d t store = .ok s)
    (hopen' : openInverted engine d t store = .ok s') : Replica s s' := by
  obtain ⟨-, index, hindex, rfl⟩ := openWith_eq_ok_iff.mp hopen
  obtain ⟨-, index', hindex', rfl⟩ := openWith_eq_ok_iff.mp hopen'
  obtain ⟨scan, hscan, hmirrors⟩ := Mirrors.openWith hindex'
  obtain rfl := Except.ok.inj (hindex.symm.trans hscan)
  obtain ⟨-, -, rfl⟩ := InvertedIndex.openWith_eq_ok_iff.mp hindex'
  exact ⟨rfl, rfl, rfl, rfl, hauto, htakes, hpublishes, hmirrors⟩

namespace Replica

variable {s : Service ScanIndex} {s' : Service InvertedIndex} (h : Replica s s')

include h

/-- The documents of rows are the same. -/
theorem document (r : Row) : s'.document r = s.document r := by
  simp only [Service.document, h.table, h.schema, h.store]

/-- **A change that neither index refuses is made by both**, and keeps a replica. -/
theorem change {c : Change} (hfits : c.Fits) {ops : List WriterOp}
    (hrequest : s'.index.request c = .ok ops) {scan : ScanIndex}
    (hscan : SearchIndex.change s.index c = .ok scan) :
    ∃ index, (SearchIndex.perform c).run s'.index = .ok () index ∧
      Replica { s with index := scan } { s' with index } := by
  obtain ⟨index, hindex⟩ :=
    InvertedIndex.exists_change_of_request h.takesIn (fun _ => h.publishes) hrequest
  obtain ⟨staged, hstaged, hmirrors⟩ := h.mirrors.change hfits hindex
  obtain rfl := Except.ok.inj (hscan.symm.trans hstaged)
  rw [InvertedIndex.publishes, h.autoCommit, Bool.true_or, if_pos rfl] at hmirrors
  obtain ⟨_, -, hmoves⟩ := InvertedIndex.exists_of_change hindex
  exact ⟨index, change_eq_ok_iff.mp hindex,
    { h with
      autoCommit := hmoves.agrees.autoCommit.trans h.autoCommit
      takesIn := hmoves.agrees.engine ▸ h.takesIn
      publishes := hmoves.agrees.engine ▸ h.publishes
      mirrors := hmirrors }⟩

section Changes

variable (hs : s.Opened) {key : Key} (hkey : key.bytes.length ≤ Key.maxLength)

include hs

/-- The documents of a key can be looked for in the inverted index. -/
theorem exists_deletion (key : Key) : ∃ op, s'.index.deletion key.term = .ok op := by
  have hspec : s.index.declared.find? keyField = some keySpec :=
    Declarations.find?_of_ofList hs.declared (List.mem_cons_of_mem _ List.mem_cons_self)
  exact ⟨_, (InvertedIndex.deletion_eq_ok_iff h.mirrors.serve).mpr ⟨keySpec, hspec, rfl, rfl⟩⟩

include hkey

/-- **Both indexes remove the documents of a key.** -/
theorem delete :
    ∃ index, (SearchIndex.delete key.term).run s'.index = .ok () index ∧
      Replica (s.withDocuments (s.index.without key.term)) { s' with index } := by
  obtain ⟨op, hop⟩ := h.exists_deletion hs key
  have hrequest : s'.index.request (.delete key.term) = .ok [op] :=
    bind_eq_ok_iff.mpr ⟨op, hop, rfl⟩
  exact h.change (c := .delete key.term) (Key.fits_term hkey) hrequest
    (s.index.change_delete key.term)

/-- **Both indexes take in the document of a row.** -/
theorem upsert {r : Row} {d : Document} (hd : s.document r = .ok d) :
    ∃ index, (SearchIndex.upsert key.term d).run s'.index = .ok () index ∧
      Replica (s.withDocuments (s.index.without key.term ++ [d])) { s' with index } := by
  obtain ⟨op, hop⟩ := h.exists_deletion hs key
  have hcheck : s.index.declared.check d = .ok () := check_document hs.declared hd
  have hrequest : s'.index.request (.upsert key.term d) = .ok [op, .addDocument d] :=
    (InvertedIndex.request_upsert_eq_ok_iff h.mirrors.serve).mpr ⟨op, hop, hcheck, rfl⟩
  refine h.change (c := .upsert key.term d) (Key.fits_term hkey) hrequest ?_
  rw [ScanIndex.change_upsert, hcheck]
  rfl

end Changes

/-- Bringing a row up to date keeps a replica. -/
theorem reindex (hs : s.Opened) {bytes : Bytes} (hbytes : bytes.length ≤ Key.maxLength)
    (m : Mutation) (time : Int64) :
    Replica (s.act (.reindex bytes m time)) (s'.act (.reindex bytes m time)) := by
  have hstore : s'.store = s.store := h.store
  have hplace : s'.store.place bytes = s.store.place bytes := hstore ▸ rfl
  have hkey : (s.store.place bytes).bytes.length ≤ Key.maxLength := hbytes
  have hread (time : Int64) : s'.store.liveRow? (s'.store.place bytes) time =
      s.store.liveRow? (s.store.place bytes) time := hstore ▸ rfl
  rw [act_eq_call, call_reindex hs, reindexed, act_reindex, finalState]
  cases hrow : s.store.liveRow? (s.store.place bytes) time with
  | some r =>
    have hrow' := (hread time).trans hrow
    dsimp only
    cases hd : s.document r with
    | ok d =>
      obtain ⟨index, hupsert, hreplica⟩ := h.upsert hs hkey hd
      rw [run_reindexInPlace_of_document hrow' ((h.document r).trans hd), hplace, hupsert]
      exact hreplica
    | error e =>
      rw [run_reindexInPlace_of_refused hrow' ((h.document r).trans hd)]
      exact h
  | none =>
    rw [run_reindexInPlace_of_gone ((hread time).trans hrow), hplace]
    cases m.isDeletion with
    | true =>
      obtain ⟨index, hdelete, hreplica⟩ := h.delete hs hkey
      rw [if_pos rfl, hdelete]
      exact hreplica
    | false => exact h

omit h

/-- Bringing a list of rows up to date keeps a replica. -/
theorem reindexAll (h : Replica s s') (hs : s.Sound) {items : List (Bytes × Mutation)}
    (hitems : ∀ item ∈ items, item.1.length ≤ Key.maxLength) (time : Int64) :
    Replica (s.act (.reindexAll items time)) (s'.act (.reindexAll items time)) := by
  rw [act_reindexAll, act_reindexAll]
  induction items generalizing s s' with
  | nil => exact h
  | cons item rest ih =>
    obtain ⟨hitem, hrest⟩ := List.forall_mem_cons.mp hitems
    refine ih (h.reindex hs.toOpened hitem item.2 time) ?_ hrest
    rw [act_eq_call]
    exact (hs.reindex item.1 item.2 time).1

/-- **Every call for keys that the engine can find keeps a replica.** -/
theorem act (h : Replica s s') (hs : s.Sound) {c : Call} (hc : c.Fits) :
    Replica (s.act c) (s'.act c) := by
  cases c with
  | apply bytes m => exact { h with store := congrArg (·.apply bytes m) h.store }
  | purge bytes => exact { h with store := congrArg (·.purge bytes) h.store }
  | reindex bytes m time =>
    exact h.reindex hs.toOpened (hc bytes List.mem_cons_self) m time
  | reindexAll items time =>
    exact h.reindexAll hs (fun item hitem => hc _ (List.mem_map_of_mem hitem)) time
  | remove key =>
    obtain ⟨index, hdelete, hreplica⟩ := h.delete hs.toOpened (hc _ List.mem_cons_self)
    have hremove : s'.act (.remove key) = { s' with index } := by
      rw [Service.act, perform, removeInPlace, finalState, run_onIndex, hdelete]
      rfl
    exact hremove ▸ hreplica

/-- **A replica is kept by every list of calls** for keys that the engine can find. -/
theorem actAll (h : Replica s s') (hs : s.Sound) {calls : List Call}
    (hcalls : ∀ c ∈ calls, c.Fits) : Replica (s.actAll calls) (s'.actAll calls) := by
  induction calls generalizing s s' with
  | nil => exact h
  | cons c rest ih =>
    obtain ⟨hc, hrest⟩ := List.forall_mem_cons.mp hcalls
    exact ih (h.act hs hc) (s.act_eq_call c ▸ (hs.call c).1) hrest

end Replica

end Service

end RowIndex
