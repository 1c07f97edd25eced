import RowIndex.Mapper
import RowIndex.Query
import RowIndex.Row

/-!
# Schema — the mapped fields of an index

A schema names the mappers of an index, one per field, in name order.  It is checked against the
table once; after that it turns rows into fields and cell values into queries.  Fields of a row are
all added or none: the first value that its mapper refuses, in name order, is the error.
-/

namespace RowIndex

/-- The field that holds the token of a row. -/
def tokenField : String := "_token"

/-- The field that holds the partition key of a row. -/
def keyField : String := "_partition_key"

/-- The names that no mapper may have. -/
def reservedFields : List String := [tokenField, keyField]

/-- A mapper with the name of its field. -/
structure MappedField where
  /-- The field's name. -/
  name : String
  /-- Its mapper. -/
  mapper : Mapper
  deriving DecidableEq

instance : Named MappedField := ⟨MappedField.name⟩

/-- The mapped fields of an index, in name order. -/
structure Schema where
  /-- The fields. -/
  fields : NameMap MappedField := .empty
  deriving DecidableEq

namespace Schema

/-- The schema of a list of fields; the last of several with one name counts. -/
def ofList (fields : List MappedField) : Schema := ⟨.ofList fields⟩

/-- The schema with a field added or replaced. -/
def withField (s : Schema) (name : String) (mapper : Mapper) : Schema :=
  ⟨s.fields.put ⟨name, mapper⟩⟩

/-- The mapper of a field. -/
def mapper? (s : Schema) (name : String) : Option Mapper :=
  (s.fields.find? name).map MappedField.mapper

/-- The number of fields. -/
def size (s : Schema) : Nat := s.fields.size

/-- The declarations of the fields. -/
def specs (s : Schema) : List FieldSpec := s.fields.entries.map fun f => f.mapper.spec f.name

/-- Check one field against a table: its name must be usable, and its column, if there is one, of a
type that the mapper takes. -/
def checkField (t : Table) (f : MappedField) : Except Error Unit :=
  if f.name = "" then .error .emptyFieldName
  else if f.name ∈ reservedFields then .error (.reservedFieldName f.name)
  else
    match t.column? f.name with
    | none => .ok ()
    | some column =>
      if f.mapper.accepts column.type then .ok ()
      else .error (.unsupportedColumn column.type f.name f.mapper.typeName)

/-- Check a schema against the table that it indexes. -/
def validate (s : Schema) (t : Table) : Except Error Unit :=
  s.fields.entries.forM (checkField t)

/-- The fields that a row gives to one mapper: none if the table has no such column or the row no
such cell. -/
def fieldsOf (t : Table) (r : Row) (f : MappedField) : Except Error (List Field) :=
  match (t.column? f.name).bind fun _ => r.value? f.name with
  | none => .ok []
  | some raw => (f.mapper.coerce f.name raw).map (f.mapper.fields f.name)

/-- The document with the fields of a row added. -/
def addFields (s : Schema) (d : Document) (t : Table) (r : Row) : Except Error Document :=
  (s.fields.entries.mapM (fieldsOf t r)).map fun added => d.append added.flatten

/-- The mapper of a field that a query names. -/
def require (s : Schema) (field : String) : Except Error Mapper :=
  match s.mapper? field with
  | some mapper => .ok mapper
  | none => .error (.noMapper field)

/-- A criterion on a mapped field. -/
def criterion (s : Schema) (field : String) (reverse : Bool) : Except Error Criterion :=
  (s.require field).map (·.criterion field reverse)

/-- Rows whose field equals a value; text is matched by its tokens. -/
def termQuery (s : Schema) (field : String) (value : Value) : Except Error Query := do
  let mapper ← s.require field
  let query : Query := match ← mapper.coerce field value with
    | .text text => .matching field text
    | other => .term field other
  return query.boosted mapper.boost

/-- A bound from an optional value. -/
def boundOf (mapper : Mapper) (field : String) (value : Option Value) (inclusive : Bool) :
    Except Error (Bound FieldValue) :=
  match value with
  | none => .ok .unbounded
  | some v => (mapper.coerce field v).map fun w => if inclusive then .included w else .excluded w

/-- Rows whose field lies between two values; a missing value leaves its side open. -/
def rangeQuery (s : Schema) (field : String) (lower upper : Option Value)
    (includeLower includeUpper : Bool) : Except Error Query := do
  let mapper ← s.require field
  let low ← boundOf mapper field lower includeLower
  let high ← boundOf mapper field upper includeUpper
  return (Query.range field low high).boosted mapper.boost

/-- Rows whose field shares a token with a text. -/
def matchQuery (s : Schema) (field text : String) : Except Error Query := do
  let mapper ← s.require field
  return (Query.matching field text).boosted mapper.boost

end Schema

end RowIndex
