import RowIndex.Index.Engine
import RowIndex.Index.Settings

/-!
# Index/Inverted — the index that looks terms up

The index has documents that are committed, documents that searches see, and a writer that was told
of changes since: a commit applies them in order, and a reload of the reader makes the result
visible.  A search lets the engine find documents by a plan, in an order that the engine can apply,
and orders what it loaded of them once more.

A change is checked before the writer is told of anything.  After that the engine can fail, and what
was done before stays done.
-/

namespace RowIndex

/-- An index of terms. -/
structure InvertedIndex where
  /-- How fields are held. -/
  layout : Layout
  /-- The declared fields. -/
  bindings : Bindings
  /-- Whether every change is committed at once. -/
  autoCommit : Bool
  /-- The engine. -/
  engine : Engine
  /-- The number of calls of the engine that can fail. -/
  calls : Nat := 0
  /-- The documents that are committed. -/
  committed : List Document := []
  /-- The documents that searches see. -/
  visible : List Document := []
  /-- What the writer was told since the last commit, in order. -/
  pending : List WriterOp := []

namespace BoundField

/-- A stored value as one of the declared kind. -/
def recast (f : BoundField) (v : FieldValue) : FieldValue :=
  match f.kind, v.asString? with
  | .keyword, some s => .keyword s
  | .text, some s => .text s
  | _, _ => v

/-- The values that a hit carries for the field. -/
def load (f : BoundField) (d : Document) : List Field :=
  if f.layout.stored then
    (d.values f.layout.name).map fun v => ⟨f.layout.name, f.recast v⟩
  else []

end BoundField

namespace InvertedIndex

/-! ## Opening and closing -/

/-- The memory that a writer can address, in bytes. -/
def writerLimit : Nat := 4293967295

/-- Open the index that an archive holds, or create one. -/
def openWith (settings : Settings) (archive : Option Archive) (engine : Engine)
    (specs : List FieldSpec) : Except Error InvertedIndex := do
  let (layout, bindings) ← Layout.build specs
  let ix : InvertedIndex ← match archive with
    | none => pure { layout, bindings, autoCommit := settings.autoCommit, engine }
    | some a => do
      let bindings ← a.layout.bind specs
      pure
        { layout := a.layout, bindings, autoCommit := settings.autoCommit, engine,
          committed := a.documents, visible := a.documents }
  if settings.ramBufferBytes < writerLimit then return ix else throw (.writerBudget writerLimit)

/-- What stays of the index when it is closed: changes that were not committed are lost. -/
def close (ix : InvertedIndex) : Archive := ⟨ix.layout, ix.committed⟩

/-! ## Changes -/

/-- Make a change by a call of the engine, unless that fails. -/
def ask (call : EngineCall) (change : InvertedIndex → InvertedIndex) :
    EStateM Error InvertedIndex Unit := do
  let ix ← get
  set { ix with calls := ix.calls + 1 }
  match ix.engine.fault ix.calls call with
  | some cause => throw (call.failure cause)
  | none => modify change

/-- Tell the writer of a change; it may fail to take a document in. -/
def tell (op : WriterOp) : EStateM Error InvertedIndex Unit :=
  let told (ix : InvertedIndex) : InvertedIndex := { ix with pending := ix.pending ++ [op] }
  match op with
  | .deleteTerm _ _ => modify told
  | .addDocument d => ask (.add d) told

/-- Commit what the writer was told, and let searches see it. -/
def refresh : EStateM Error InvertedIndex Unit := do
  ask .commit fun ix =>
    { ix with committed := ix.engine.replay ix.committed ix.pending, pending := [] }
  ask .reload fun ix => { ix with visible := ix.committed }

/-- Tell the writer of changes, and commit them if every change is committed. -/
def write (ops : List WriterOp) : EStateM Error InvertedIndex Unit := do
  ops.forM tell
  let ix ← get
  if ix.autoCommit then refresh

/-- The change that removes the documents of a term, whose field must hold keywords. -/
def deletion (ix : InvertedIndex) (t : Term) : Except Error WriterOp := do
  let f ← ix.bindings.require t.field
  let key ← f.term (.keyword t.text)
  return .deleteTerm f key

/-- Check that a field of a document is declared with the kind of its value. -/
def checkField (ix : InvertedIndex) (field : Field) : Except Error Unit := do
  let f ← ix.bindings.require field.name
  if f.kind = field.value.kind then .ok ()
  else .error (.wrongKind field.name f.kind field.value.kind)

/-- Replace the documents that a term identifies. -/
def upsert (t : Term) (d : Document) : EStateM Error InvertedIndex Unit := do
  let ix ← get
  let op ← MonadExcept.ofExcept (ix.deletion t)
  MonadExcept.ofExcept (d.fields.forM ix.checkField)
  write [op, .addDocument d]

/-- Remove the documents that a term identifies. -/
def delete (t : Term) : EStateM Error InvertedIndex Unit := do
  let ix ← get
  let op ← MonadExcept.ofExcept (ix.deletion t)
  write [op]

/-! ## Searches -/

/-- An order that the engine can apply while it collects documents. -/
inductive EngineOrder where
  /-- The best score first. -/
  | score
  /-- By the values of a field. -/
  | fast (field : BoundField) (reverse : Bool)

/-- The order that the engine can apply, if any: the order of scores, or that of a single field
which it can read without loading documents. -/
def engineOrder? (ix : InvertedIndex) (order : SortOrder) : Option EngineOrder :=
  match order.criteria with
  | [] => some .score
  | [c] =>
    match ix.bindings.find? c.field with
    | none => none
    | some f => if f.kind ≠ .text ∧ f.layout.fast then some (.fast f c.reverse) else none
  | _ => none

/-- The documents that match a plan, as the engine holds them. -/
def selected (ix : InvertedIndex) (plan : Plan) : List Document :=
  (ix.engine.arrange ix.visible).filter (ix.engine.selects plan)

/-- The score of a document. -/
def relevance (ix : InvertedIndex) (plan : Plan) (d : Document) : Single :=
  ix.engine.relevance ix.visible plan d

/-- The documents that the engine collects for a plan.  If it cannot apply the order, it collects
all that match. -/
def collect (ix : InvertedIndex) (plan : Plan) (order : SortOrder) (limit : Nat) :
    List Document :=
  let byScore := (ix.selected plan).mergeSort fun a b =>
    (compare (ix.relevance plan b) (ix.relevance plan a)).isLE
  match ix.engineOrder? order with
  | some .score => byScore.take limit
  | some (.fast f reverse) =>
    ((ix.selected plan).mergeSort fun a b => (ix.engine.fastOrder f reverse a b).isLE).take limit
  | none => byScore

/-- The fields of a name that a hit carries; none if the name is not declared. -/
def loadField (ix : InvertedIndex) (d : Document) (name : String) : List Field :=
  match ix.bindings.find? name with
  | none => []
  | some f => f.load d

/-- What a hit carries of a document, in the order of the names. -/
def loadFields (ix : InvertedIndex) (names : NameSet) (d : Document) : Document :=
  ⟨names.entries.flatMap (ix.loadField d)⟩

/-- The fields that are loaded for a search: those that hits carry and those they are ordered by. -/
def needed (s : Search) : NameSet := s.order.fields.foldl NameMap.put s.load

/-- A document with what is loaded of it, and its score. -/
def loaded (ix : InvertedIndex) (s : Search) (plan : Plan) (d : Document) : Document × Hit :=
  (d, { document := ix.loadFields (needed s) d, score := ix.relevance plan d })

/-- The best documents, with what is loaded of them.  Without documents to search or hits to give,
the query is not looked at. -/
def best (ix : InvertedIndex) (s : Search) : Except Error (List (Document × Hit)) :=
  if s.limit = 0 ∨ ix.visible = [] then .ok []
  else do
    let plan ← Plan.ofSearch ix.bindings s
    let found := (ix.collect plan s.order s.limit).map (ix.loaded s plan)
    return (found.mergeSort fun a b => (s.order.order a.2 b.2).isLE).take s.limit

/-- The best hits, with the fields that they carry. -/
def search (ix : InvertedIndex) (s : Search) : Except Error (List Hit) := do
  let found ← ix.best s
  return found.map fun (_, hit) => { hit with document := hit.document.project s.load }

instance : SearchIndex InvertedIndex where
  upsert := upsert
  delete := delete
  commit := refresh
  search := search
  size ix := ix.visible.length
  name _ := "tantivy"

end InvertedIndex

end RowIndex
