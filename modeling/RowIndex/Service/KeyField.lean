import RowIndex.Error
import RowIndex.Schema
import RowIndex.Store

/-!
# Service/KeyField — partition keys as values of an index field

The hexadecimal text of a partition key identifies the document of its row, and is all that a hit
has to carry for its row to be found again.
-/

namespace RowIndex

/-- The declaration of the key field. -/
def keySpec : FieldSpec where
  name := keyField
  kind := .keyword
  stored := true

/-- The fields that a hit must carry. -/
def keyLoad : NameSet := NameMap.empty.put keyField

namespace Key

/-- The term that identifies the document of a key's row. -/
def term (key : Key) : Term := ⟨keyField, Hex.encode key.bytes⟩

/-- The field that holds a key. -/
def toField (key : Key) : Field := ⟨keyField, .keyword (Hex.encode key.bytes)⟩

end Key

/-- The key that a loaded document carries, placed as the store places it. -/
def Document.key (d : Document) (store : Store) : Except Error Key :=
  match (d.first? keyField).bind FieldValue.asString? with
  | none => .error (.keyNotLoaded keyField)
  | some text =>
    match Hex.decode text with
    | .ok bytes => .ok (store.place bytes)
    | .error reason => .error (.malformedKey text reason)

end RowIndex
