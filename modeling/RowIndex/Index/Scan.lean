import RowIndex.Index.Basic

/-!
# Index/Scan — the reference index: a list of documents, searched from end to end

Every search scores every document by `Query.score`.  Changes are visible at once.
-/

namespace RowIndex

/-- A list of documents with their declarations. -/
structure ScanIndex where
  /-- The declared fields. -/
  declared : Declarations
  /-- The documents, the latest last. -/
  documents : List Document := []

namespace ScanIndex

/-- The empty index for a list of declarations. -/
def ofSpecs (specs : List FieldSpec) : Except Error ScanIndex :=
  (Declarations.ofList specs).map fun declared => { declared }

/-- The documents that a term does not identify. -/
def without (ix : ScanIndex) (t : Term) : List Document := ix.documents.filter (!·.hasTerm t)

/-- The index with the documents removed that a term identifies. -/
def delete (ix : ScanIndex) (t : Term) : ScanIndex := { ix with documents := ix.without t }

/-- Replace the documents that a term identifies, after a check of the new one. -/
def upsertInPlace (t : Term) (d : Document) : EStateM Error ScanIndex Unit := do
  let ix ← get
  MonadExcept.ofExcept (ix.declared.check d)
  modify (·.delete t)
  modify fun ix => { ix with documents := ix.documents ++ [d] }

/-- The documents that match a query and a filter, with their scores. -/
def hits (ix : ScanIndex) (query : Query) (filter : Option Query) : List Hit :=
  (ix.documents.filter fun d => filter.all fun f => (f.score d).isSome).filterMap fun d =>
    (query.score d).map fun score => ⟨d, score⟩

/-- The names among `load` whose field is declared as stored. -/
def loadable (ix : ScanIndex) (load : NameSet) : NameSet :=
  load.filter fun name => (ix.declared.find? name).any (·.stored)

/-- The best hits, with the fields that they carry. -/
def search (ix : ScanIndex) (s : Search) : List Hit :=
  ((s.order.sort (ix.hits s.query s.filter)).take s.limit).map fun hit =>
    { hit with document := hit.document.project (ix.loadable s.load) }

instance : SearchIndex ScanIndex where
  upsert := upsertInPlace
  delete t := modify (·.delete t)
  commit := pure ()
  search ix s := .ok (ix.search s)
  size ix := ix.documents.length
  name _ := "memory"

end ScanIndex

end RowIndex
