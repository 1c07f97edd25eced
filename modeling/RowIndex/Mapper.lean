import RowIndex.Binary.Arithmetic
import RowIndex.Decimal.Numeral
import RowIndex.Document
import RowIndex.Error
import RowIndex.SortOrder
import RowIndex.Text.Blank
import RowIndex.Text.LowerCase

/-!
# Mapper — how the values of a column become values of an index field

A mapper reads cell values as values of one field kind, or refuses them: with a type mismatch if it
takes no values of that type, and otherwise with a message that quotes the text it cannot read.
`accepts` tells in advance which column types it takes.
-/

namespace RowIndex

namespace Mapper

/-! ## Numbers -/

/-- A number as it is read from a value, before it is narrowed. -/
inductive Number where
  | integral (n : Int)
  | real (x : Double)

/-- Read a value as a number: integers exactly, text and decimals as floating-point numerals. -/
def readNumber (field : String) (expected : Expectation) : Value → Except Error Number
  | .int n => .ok (.integral n.toInt)
  | .bigInt n => .ok (.integral n.toInt)
  | .varInt n => .ok (.integral n.val)
  | .float x => .ok (.real x.convert)
  | .double x => .ok (.real x)
  | .decimal text | .text text =>
    match Binary.ofText? (Text.trim text) with
    | some x => .ok (.real x)
    | none => .error (.unreadable field expected text)
  | .boolean flag => .error (.typeMismatch field (Value.boolean flag).display)
  | .blob bytes => .error (.typeMismatch field (Value.blob bytes).display)

/-- A number in 32 bits: integers keep their low bits, others are cut at the point and the range. -/
def Number.toInt32 : Number → Int32
  | .integral n => Int32.ofInt n
  | .real x => Int32.ofInt (x.toIntBetween (-2 ^ 31) (2 ^ 31 - 1))

/-- A number in 64 bits: integers keep their low bits, others are cut at the point and the range. -/
def Number.toInt64 : Number → Int64
  | .integral n => Int64.ofInt n
  | .real x => Int64.ofInt (x.toIntBetween (-2 ^ 63) (2 ^ 63 - 1))

/-- The nearest 32-bit floating-point number. -/
def Number.toSingle : Number → Single
  | .integral n => Binary.ofInt n
  | .real x => x.convert

/-- The nearest 64-bit floating-point number. -/
def Number.toDouble : Number → Double
  | .integral n => Binary.ofInt n
  | .real x => x

/-! ## Keywords -/

/-- Text as a keyword: lower-cased unless case matters. -/
def normalize (caseSensitive : Bool) (text : String) : String :=
  if caseSensitive then text else Text.toLower text

/-- Text without the mark of a hexadecimal number. -/
def dropHexMark : List Char → List Char
  | '0' :: 'x' :: digits => digits
  | '0' :: 'X' :: digits => digits
  | text => text

/-- Read a value as a truth value. -/
def readBoolean (field : String) : Value → Except Error Bool
  | .boolean flag => .ok flag
  | .text text =>
    let word := normalize false (Text.trim text)
    if word = "true" then .ok true
    else if word = "false" then .ok false
    else .error (.unreadable field .boolean text)
  | other => .error (.typeMismatch field other.display)

/-- Read a value as a byte string. -/
def readBytes (field : String) : Value → Except Error Bytes
  | .blob bytes => .ok bytes
  | .text text =>
    match Hex.decode (String.ofList (dropHexMark (Text.trim text).toList)) with
    | .ok bytes => .ok bytes
    | .error reason => .error (.notHex field text reason)
  | other => .error (.typeMismatch field other.display)

end Mapper

/-- What a mapper makes of the values of its column. -/
inductive MapperType where
  /-- Integers of 32 bits. -/
  | integer
  /-- Integers of 64 bits. -/
  | long
  /-- Floating-point numbers of 32 bits. -/
  | float
  /-- Floating-point numbers of 64 bits. -/
  | double
  /-- Keywords. -/
  | string (caseSensitive : Bool)
  /-- Text matched by its tokens. -/
  | text
  /-- The keywords `true` and `false`. -/
  | boolean
  /-- Hexadecimal keywords. -/
  | blob
  deriving DecidableEq, Repr

/-- A mapper: what it makes of values, and its weight in queries. -/
structure Mapper where
  /-- What it makes of values. -/
  type : MapperType
  /-- The factor on the score of queries on its field. -/
  boost : Single := Binary.one
  deriving DecidableEq

namespace Mapper

/-- The name of the mapper's type. -/
def typeName (m : Mapper) : String :=
  match m.type with
  | .integer => "integer"
  | .long => "long"
  | .float => "float"
  | .double => "double"
  | .string _ => "string"
  | .text => "text"
  | .boolean => "boolean"
  | .blob => "blob"

/-- The kind of the mapper's field. -/
def kind (m : Mapper) : FieldKind :=
  match m.type with
  | .integer | .long => .long
  | .float | .double => .double
  | .string _ | .boolean | .blob => .keyword
  | .text => .text

/-- The declaration of the mapper's field: hits can be ordered by it. -/
def spec (m : Mapper) (field : String) : FieldSpec where
  name := field
  kind := m.kind
  sortable := true

/-- A criterion on the mapper's field. -/
def criterion (_ : Mapper) (field : String) (reverse : Bool) : Criterion := ⟨field, reverse⟩

/-- Whether a column of the given type can feed the mapper. -/
def accepts (m : Mapper) (type : CellType) : Bool :=
  match m.type with
  | .integer | .long | .float | .double => type.isText || type.isNumeric
  | .string _ => type ≠ .blob
  | .text => type.isText
  | .boolean => type.isText || type = .boolean
  | .blob => type.isText || type = .blob

/-- The field value of a cell value, checked in full. -/
def coerce (m : Mapper) (field : String) (raw : Value) : Except Error FieldValue :=
  match m.type with
  | .integer => (readNumber field .integer raw).map fun n => .long n.toInt32.toInt64
  | .long => (readNumber field .long raw).map fun n => .long n.toInt64
  | .float => (readNumber field .float raw).map fun n => .double n.toSingle.convert
  | .double => (readNumber field .double raw).map fun n => .double n.toDouble
  | .string caseSensitive =>
    match raw with
    | .blob bytes => .error (.typeMismatch field (Value.blob bytes).display)
    | other => .ok (.keyword (normalize caseSensitive other.display))
  | .text =>
    match raw with
    | .text text => .ok (.text text)
    | other => .error (.typeMismatch field other.display)
  | .boolean =>
    (readBoolean field raw).map fun flag => .keyword (if flag then "true" else "false")
  | .blob => (readBytes field raw).map fun bytes => .keyword (Hex.encode bytes)

/-- The field value of a cell value that the mapper has produced itself: hexadecimal digits are not
checked again. -/
def coerceTrusted (m : Mapper) (field : String) (raw : Value) : Except Error FieldValue :=
  match m.type with
  | .blob =>
    .ok (.keyword (String.ofList (dropHexMark (normalize false raw.display).toList)))
  | _ => m.coerce field raw

/-- The fields that hold a value. -/
def fields (_ : Mapper) (field : String) (value : FieldValue) : List Field := [⟨field, value⟩]

end Mapper

end RowIndex
