import RowIndex.Index.Open
import RowIndex.Service.Definition
import RowIndex.Service.KeyField
import RowIndex.Service.RowOrder
import RowIndex.Service.TokenField

/-!
# Service/Basic — the row index over a store

A service keeps one document per row in its index.  After a mutation the whole row is read again,
for the mutation may carry only some of its cells, and its document is replaced; the document of a
row that is gone is removed.  A search finds documents, and reads every row once more before it is
returned, so that a row is never older than the store.
-/

namespace RowIndex

/-- A row index over a store. -/
structure Service (ι : Type) where
  /-- The indexed table. -/
  table : Table
  /-- The column that carries the score of a found row. -/
  column : String
  /-- The mapped fields. -/
  schema : Schema
  /-- The store. -/
  store : Store
  /-- The index. -/
  index : ι

/-- What indexing did with a row. -/
inductive Outcome where
  /-- The row has live cells, and its document was replaced. -/
  | upserted
  /-- The row is gone, and its document was removed. -/
  | deleted
  /-- There was nothing to index and nothing to remove. -/
  | skipped
  deriving DecidableEq, Repr

/-- What indexing did with a batch of rows. -/
structure BatchReport where
  /-- Rows whose document was replaced. -/
  upserted : Nat := 0
  /-- Rows whose document was removed. -/
  deleted : Nat := 0
  /-- Rows with nothing to do. -/
  skipped : Nat := 0
  /-- The rows that failed, in order. -/
  failures : List (Bytes × Error) := []

namespace BatchReport

/-- The report with one more row. -/
def add (r : BatchReport) (bytes : Bytes) : Except Error Outcome → BatchReport
  | .ok .upserted => { r with upserted := r.upserted + 1 }
  | .ok .deleted => { r with deleted := r.deleted + 1 }
  | .ok .skipped => { r with skipped := r.skipped + 1 }
  | .error e => { r with failures := r.failures ++ [(bytes, e)] }

/-- Whether no row failed. -/
def isSuccess (r : BatchReport) : Bool := r.failures.isEmpty

end BatchReport

namespace Service

/-! ## Opening -/

/-- The declarations of the index of a definition. -/
def specs (d : Definition) (p : Partitioner) : List FieldSpec :=
  p.tokenSpec :: keySpec :: d.schema.specs

/-- Check a definition against the table. -/
def check (d : Definition) (t : Table) : Except Error Unit :=
  if d.column = "" then .error .emptyScoreColumn
  else if (t.column? d.column).isSome then .error (.scoreColumnTaken d.column t.name)
  else d.schema.validate t

variable {ι : Type}

/-- Open a service, its index being opened by `openIndex`. -/
def openWith (openIndex : Settings → List FieldSpec → Except Error ι) (d : Definition) (t : Table)
    (store : Store) : Except Error (Service ι) := do
  check d t
  let index ← openIndex d.settings (specs d store.partitioner)
  return { table := t, column := d.column, schema := d.schema, store, index }

/-! ## The order of found rows -/

/-- The score that a found row carries. -/
def score? (s : Service ι) (r : Row) : Option Single := r.score? s.column

/-- The order in which found rows are merged. -/
def rowOrder (s : Service ι) (byScore : Bool) : Row → Row → Ordering :=
  if byScore then Row.scoreOrder s.column else Row.tokenOrder

/-- A list of rows in an order; equal ones keep their places. -/
def sortRows (s : Service ι) (byScore : Bool) (rows : List Row) : List Row :=
  rows.mergeSort fun a b => (s.rowOrder byScore a b).isLE

/-! ## Writing -/

/-- Apply a mutation to the store alone. -/
def apply (s : Service ι) (bytes : Bytes) (m : Mutation) : Service ι :=
  { s with store := s.store.apply bytes m }

/-- Drop a partition from the store alone. -/
def purge (s : Service ι) (bytes : Bytes) : Service ι :=
  { s with store := s.store.purge bytes }

/-- The document of a row: its token, its key and its mapped fields. -/
def document (s : Service ι) (r : Row) : Except Error Document := do
  let token ← s.store.partitioner.tokenFieldOf r.key
  s.schema.addFields ⟨[token, r.key.toField]⟩ s.table r

variable [SearchIndex ι]

/-- Run a program of the index on the index of a service. -/
def onIndex {α : Type} (x : EStateM Error ι α) : EStateM Error (Service ι) α :=
  fun s => mapEnd (fun index => { s with index }) (x.run s.index)

/-- Remove the document of a key from the index, in place. -/
def removeInPlace (key : Key) : EStateM Error (Service ι) Unit :=
  onIndex (SearchIndex.delete key.term)

/-- Bring the document of a row up to date in place, as of a time, after a mutation. -/
def reindexInPlace (bytes : Bytes) (m : Mutation) (time : Int64) :
    EStateM Error (Service ι) Outcome := do
  let s ← get
  let key := s.store.place bytes
  match (s.store.read key time).filter (!·.isEmpty) with
  | some row =>
    let d ← MonadExcept.ofExcept (s.document row)
    onIndex (SearchIndex.upsert key.term d)
    return .upserted
  | none =>
    if m.isDeletion then
      removeInPlace key
      return .deleted
    else
      return .skipped

/-- Make all changes of the index visible, in place. -/
def commitInPlace : EStateM Error (Service ι) Unit := onIndex SearchIndex.commit

/-- Remove the document of a key from the index. -/
def remove (s : Service ι) (key : Key) : Except Error (Service ι) :=
  (outcome (removeInPlace key) s).map Prod.snd

/-- Bring the document of a row up to date, as of a time, after a mutation. -/
def reindex (s : Service ι) (bytes : Bytes) (m : Mutation) (time : Int64) :
    Except Error (Outcome × Service ι) :=
  outcome (reindexInPlace bytes m time) s

/-- Bring one row up to date, recording what was done; after a row that fails the batch goes on with
what is left of the service. -/
def reindexStep (time : Int64) (state : BatchReport × Service ι) (item : Bytes × Mutation) :
    BatchReport × Service ι :=
  match (reindexInPlace item.1 item.2 time).run state.2 with
  | .ok outcome s => (state.1.add item.1 (.ok outcome), s)
  | .error e s => (state.1.add item.1 (.error e), s)

/-- Bring a list of rows up to date, one after another. -/
def reindexAll (s : Service ι) (items : List (Bytes × Mutation)) (time : Int64) :
    BatchReport × Service ι :=
  items.foldl (reindexStep time) ({}, s)

/-! ## Reading -/

/-- The row of a hit as of a time, with the score in its column; none if the row is gone. -/
def row (s : Service ι) (hit : Hit) (time : Int64) : Except Error (Option Row) := do
  let key ← hit.document.key s.store
  return ((s.store.read key time).filter (!·.isEmpty)).map fun r =>
    r.withCell ⟨s.column, some (.text hit.score.toText), time⟩

/-- The search of an index for the rows of a range. -/
def searchOf (s : Service ι) (query : Query) (filter : Option Query) (limit : Nat) : Search where
  query := query
  filter := filter
  order := s.store.partitioner.tokenOrder
  load := keyLoad
  limit := limit

/-- The rows of a range that match a query, in token order, as of a time.  Hits whose row is gone
are left out. -/
def search (s : Service ι) (query : Query) (range : TokenRange) (limit : Nat) (time : Int64) :
    Except Error (List Row) := do
  let filter ← s.store.partitioner.rangeFilter range
  let hits ← SearchIndex.search s.index (s.searchOf query filter limit)
  let rows ← hits.mapM fun hit => s.row hit time
  return rows.filterMap id

/-- A service in words. -/
def describe (s : Service ι) : String :=
  let tokens :=
    match s.store.partitioner with
    | .murmur3 => "Murmur3"
    | .random => "Random"
    | .byteOrdered => "ByteOrdered"
  "RowService \x7b table: " ++ Text.quoted s.table.name ++ ", column: " ++ Text.quoted s.column ++
    ", fields: " ++ toString s.schema.size ++ ", tokens: " ++ tokens ++ ", backend: " ++
    Text.quoted (SearchIndex.name s.index) ++ " \x7d"

end Service

end RowIndex
