import RowIndex.Index.Inverted
import RowIndex.Index.Scan

/-!
# Index/Open — the index that the settings name
-/

namespace RowIndex

/-- Either of the two indexes. -/
inductive AnyIndex where
  | scan (ix : ScanIndex)
  | inverted (ix : InvertedIndex)

namespace AnyIndex

/-- Run a program of the index in its place. -/
def onEither (onScan : EStateM Error ScanIndex Unit)
    (onInverted : EStateM Error InvertedIndex Unit) : EStateM Error AnyIndex Unit
  | scan ix => mapEnd scan (onScan.run ix)
  | inverted ix => mapEnd inverted (onInverted.run ix)

instance : SearchIndex AnyIndex where
  upsert t d := onEither (SearchIndex.upsert t d) (SearchIndex.upsert t d)
  delete t := onEither (SearchIndex.delete t) (SearchIndex.delete t)
  commit := onEither SearchIndex.commit SearchIndex.commit
  search
    | scan ix, s => SearchIndex.search ix s
    | inverted ix, s => SearchIndex.search ix s
  size
    | scan ix => SearchIndex.size ix
    | inverted ix => SearchIndex.size ix
  name
    | scan ix => SearchIndex.name ix
    | inverted ix => SearchIndex.name ix

/-- Open the index that the settings name.  `archive` is what their directory holds. -/
def openWith (archive : Option Archive) (engine : Engine) (settings : Settings)
    (specs : List FieldSpec) : Except Error AnyIndex :=
  if settings.backend = "memory" then (ScanIndex.ofSpecs specs).map scan
  else if settings.backend = "tantivy" then
    (InvertedIndex.openWith settings archive engine specs).map inverted
  else .error (.unknownBackend settings.backend)

/-- What the directory of the index holds after it is closed. -/
def close : AnyIndex → Option Archive
  | scan _ => none
  | inverted ix => some ix.close

end AnyIndex

end RowIndex
