import RowIndex.Bytes.Hex
import RowIndex.Field
import RowIndex.Value

/-!
# Error — why a configuration, a value or a search is refused

Each constructor is one cause; `kind` sorts the causes, `message` puts them into words, and
`isRowScoped` tells whether only the row at hand is affected, so that a batch can go on.
-/

namespace RowIndex

/-- What a mapper expected to read from a text. -/
inductive Expectation where
  | integer | long | float | double | boolean
  deriving DecidableEq, Repr

/-- The expectation with its article. -/
def Expectation.describe : Expectation → String
  | integer => "an integer"
  | long => "a long"
  | float => "a float"
  | double => "a double"
  | boolean => "a boolean"

/-- The sort of an error. -/
inductive ErrorKind where
  /-- The definition of the index cannot be used. -/
  | configuration
  /-- A value is of the right type but cannot be read. -/
  | validation
  /-- A value is of a type that its mapper does not take. -/
  | typeMismatch
  /-- The index refuses a document or a query. -/
  | index
  deriving DecidableEq, Repr

/-- Why an operation failed. -/
inductive Error where
  /-- A mapper has the empty name. -/
  | emptyFieldName
  /-- A mapper has a name that the index needs for itself. -/
  | reservedFieldName (name : String)
  /-- A column's type does not suit its mapper. -/
  | unsupportedColumn (type : CellType) (column mapper : String)
  /-- The score column has the empty name. -/
  | emptyScoreColumn
  /-- The score column is already a column of the table. -/
  | scoreColumnTaken (column table : String)
  /-- There is no index of that name. -/
  | unknownBackend (name : String)
  /-- Two declarations name one field. -/
  | duplicateField (name : String)
  /-- An existing index lacks a declared field. -/
  | absentField (name : String)
  /-- An existing index holds a declared field in another form. -/
  | differentField (name : String) (kind : FieldKind)
  /-- A text does not spell what the field's mapper expects. -/
  | unreadable (field : String) (expected : Expectation) (text : String)
  /-- A text does not spell a byte string. -/
  | notHex (field text : String) (reason : Hex.Error)
  /-- No mapper has the field's name. -/
  | noMapper (field : String)
  /-- The field's mapper does not take values of that type. -/
  | typeMismatch (field value : String)
  /-- The field is not declared. -/
  | undeclaredField (name : String)
  /-- A document holds a value of another kind than declared. -/
  | wrongKind (name : String) (declared actual : FieldKind)
  /-- A value is looked for in a field of another kind. -/
  | unusableTerm (value : String) (kind : FieldKind)
  /-- Text is looked for in a field of numbers. -/
  | notAnalyzed (field : String)
  /-- The writer of an index would need more memory than it can address. -/
  | writerBudget (limit : Nat)
  /-- The engine of an index did not take in a document. -/
  | documentNotAdded (cause : String)
  /-- The engine of an index did not commit its changes. -/
  | commitFailed (cause : String)
  /-- The engine of an index did not show what was committed. -/
  | reloadFailed (cause : String)
  /-- A hit does not carry the partition key. -/
  | keyNotLoaded (field : String)
  /-- A hit carries a partition key that is not hexadecimal. -/
  | malformedKey (text : String) (reason : Hex.Error)
  deriving DecidableEq, Repr

namespace Error

/-- The sort of the error. -/
def kind : Error → ErrorKind
  | emptyFieldName | reservedFieldName _ | unsupportedColumn .. | emptyScoreColumn
  | scoreColumnTaken .. | unknownBackend _ | duplicateField _ | absentField _
  | differentField .. => .configuration
  | unreadable .. | notHex .. | noMapper _ => .validation
  | typeMismatch .. => .typeMismatch
  | undeclaredField _ | wrongKind .. | unusableTerm .. | notAnalyzed _ | writerBudget _
  | documentNotAdded _ | commitFailed _ | reloadFailed _ | keyNotLoaded _ | malformedKey .. =>
    .index

/-- Whether only the row at hand is affected. -/
def isRowScoped (e : Error) : Bool :=
  match e.kind with
  | .validation | .typeMismatch => true
  | .configuration | .index => false

/-- The field whose value was refused. -/
def field? : Error → Option String
  | unreadable field _ _ => some field
  | notHex field _ _ => some field
  | noMapper field => some field
  | typeMismatch field _ => some field
  | _ => none

/-- The cause in words. -/
def reason : Error → String
  | emptyFieldName => "Field names must not be empty"
  | reservedFieldName name => "Field name '" ++ name ++ "' is reserved"
  | unsupportedColumn type column mapper =>
    "Type '" ++ type.display ++ "' of column '" ++ column ++ "' is not supported by mapper '" ++
      mapper ++ "'"
  | emptyScoreColumn => "Score column name must not be empty"
  | scoreColumnTaken column table =>
    "Score column '" ++ column ++ "' collides with a column of table '" ++ table ++ "'"
  | unknownBackend name => "Unknown index backend '" ++ name ++ "'"
  | duplicateField name => "Field '" ++ name ++ "' is declared twice"
  | absentField name => "Index has no field '" ++ name ++ "'"
  | differentField name kind => "Index field '" ++ name ++ "' is not of kind " ++ kind.label
  | unreadable field expected text =>
    "Field \"" ++ field ++ "\" requires " ++ expected.describe ++ ", but found \"" ++ text ++ "\""
  | notHex field text reason =>
    "Field \"" ++ field ++ "\" requires hex bytes, but found \"" ++ text ++ "\": " ++
      reason.message
  | noMapper field => "No mapper found for field \"" ++ field ++ "\""
  | typeMismatch field value => "field \"" ++ field ++ "\" cannot map value \"" ++ value ++ "\""
  | undeclaredField name => "Field '" ++ name ++ "' is not declared"
  | wrongKind name declared actual =>
    "Field '" ++ name ++ "' is declared as " ++ declared.label ++ " but got " ++ actual.label
  | unusableTerm value kind => "Value " ++ value ++ " cannot be used as a " ++ kind.label ++ " term"
  | notAnalyzed field =>
    "No analyzer for '" ++ field ++ "': Schema error: '" ++ Text.quoted field ++
      " is not a text field.'"
  | writerBudget limit =>
    "Failed to create index writer: An invalid argument was passed: " ++
      "'The memory arena in bytes per thread cannot exceed " ++ toString limit ++ "'"
  | documentNotAdded cause => "Failed to add document: " ++ cause
  | commitFailed cause => "Failed to commit index: " ++ cause
  | reloadFailed cause => "Failed to reload index reader: " ++ cause
  | keyNotLoaded field => "Hit has no " ++ field ++ " field"
  | malformedKey text reason => "Malformed partition key '" ++ text ++ "': " ++ reason.message

/-- The message: the sort of the error and the cause. -/
def message (e : Error) : String :=
  match e.kind with
  | .configuration => "Configuration error: " ++ e.reason
  | .validation => "Validation error: " ++ e.reason
  | .typeMismatch => "Type mismatch: " ++ e.reason
  | .index => "Index error: " ++ e.reason

instance : ToString Error := ⟨message⟩

end Error

end RowIndex
