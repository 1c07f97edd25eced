import RowIndex.Program
import RowIndex.Query
import RowIndex.SortOrder

/-!
# Index/Basic — what every index does

An index holds documents of declared fields.  Documents are replaced and removed by a term, and a
search finds the best matching ones.  Changes are made in place, so an operation that fails may
leave a part of its work behind.
-/

namespace RowIndex

/-- What a search is asked. -/
structure Search where
  /-- What is sought; it gives the hits their scores. -/
  query : Query
  /-- A further condition without influence on scores. -/
  filter : Option Query := none
  /-- The order of the hits. -/
  order : SortOrder := {}
  /-- The fields that hits carry. -/
  load : NameSet := .empty
  /-- The greatest number of hits. -/
  limit : Nat

/-- The operations of an index. -/
class SearchIndex (ι : Type) where
  /-- Replace all documents that a term identifies by one. -/
  upsert : Term → Document → EStateM Error ι Unit
  /-- Remove all documents that a term identifies. -/
  delete : Term → EStateM Error ι Unit
  /-- Make all changes visible. -/
  commit : EStateM Error ι Unit
  /-- The hits of a search, in order. -/
  search : ι → Search → Except Error (List Hit)
  /-- The number of visible documents. -/
  size : ι → Nat
  /-- The name of the index. -/
  name : ι → String

/-- The declared fields of an index, by name. -/
abbrev Declarations := NameMap FieldSpec

namespace Declarations

/-- The declarations of a list, none of which may repeat a name. -/
def ofList (specs : List FieldSpec) : Except Error Declarations :=
  specs.foldlM (fun declared spec =>
    if declared.contains spec.name then .error (.duplicateField spec.name)
    else .ok (declared.put spec)) .empty

/-- Check that a field is declared with the kind of its value. -/
def checkField (declared : Declarations) (f : Field) : Except Error Unit :=
  match declared.find? f.name with
  | none => .error (.undeclaredField f.name)
  | some spec =>
    if spec.kind = f.value.kind then .ok () else .error (.wrongKind f.name spec.kind f.value.kind)

/-- Check all fields of a document, in order. -/
def check (declared : Declarations) (d : Document) : Except Error Unit :=
  d.fields.forM (checkField declared)

end Declarations

end RowIndex
