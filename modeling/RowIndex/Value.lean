import RowIndex.Bytes.Hex
import RowIndex.Decimal.Positional
import RowIndex.Int128

/-!
# Value — the values that a cell can hold, and the types that a column can have

A value carries its type as its constructor.  Column types are finer by one: text known to be ASCII
is a column type of its own, but its values are text.
-/

namespace RowIndex

/-- The type of a column. -/
inductive CellType where
  | ascii | text | int | bigInt | varInt | float | double | decimal | boolean | blob
  deriving DecidableEq, Repr

namespace CellType

/-- All types, in order. -/
def all : List CellType :=
  [ascii, text, int, bigInt, varInt, float, double, decimal, boolean, blob]

/-- Whether values of the type are text. -/
def isText : CellType → Bool
  | ascii | text => true
  | _ => false

/-- Whether values of the type are numbers. -/
def isNumeric : CellType → Bool
  | int | bigInt | varInt | float | double | decimal => true
  | _ => false

/-- The name of the type in messages. -/
def display : CellType → String
  | ascii => "ascii"
  | text => "text"
  | int => "int"
  | bigInt => "bigint"
  | varInt => "varint"
  | float => "float"
  | double => "double"
  | decimal => "decimal"
  | boolean => "boolean"
  | blob => "blob"

instance : ToString CellType := ⟨display⟩

end CellType

/-- A value of a cell. -/
inductive Value where
  | int (n : Int32)
  | bigInt (n : Int64)
  | varInt (n : Int128)
  | float (x : Single)
  | double (x : Double)
  /-- A decimal number of any precision, kept as text. -/
  | decimal (text : String)
  | text (text : String)
  | boolean (flag : Bool)
  | blob (bytes : Bytes)
  deriving DecidableEq

namespace Value

/-- The type of a value; text is never known to be ASCII. -/
def cellType : Value → CellType
  | int _ => .int
  | bigInt _ => .bigInt
  | varInt _ => .varInt
  | float _ => .float
  | double _ => .double
  | decimal _ => .decimal
  | text _ => .text
  | boolean _ => .boolean
  | blob _ => .blob

/-- The text of a text value. -/
def asText? : Value → Option String
  | text s => some s
  | _ => none

/-- A value in words: numbers in positional notation, blobs as `0x` and hexadecimal digits. -/
def display : Value → String
  | int n => toString n.toInt
  | bigInt n => toString n.toInt
  | varInt n => toString n.val
  | float x => x.toText
  | double x => x.toText
  | decimal s => s
  | text s => s
  | boolean flag => if flag then "true" else "false"
  | blob bytes => "0x" ++ Hex.encode bytes

instance : ToString Value := ⟨display⟩

end Value

end RowIndex
