import RowIndex.Binary.Format
import RowIndex.Decimal.Positional
import RowIndex.NameMap

/-!
# Field — typed values of index fields, and declarations of fields

An index field has a kind, and its values are of that kind.  Values of one kind are totally
ordered — numbers by size, doubles by the total order of their bit patterns, text by code points —
and values of different kinds are not comparable.
-/

namespace RowIndex

/-- The kind of an index field. -/
inductive FieldKind where
  /-- Integers of 64 bits. -/
  | long
  /-- Floating-point numbers of 64 bits. -/
  | double
  /-- Text that is matched as a whole. -/
  | keyword
  /-- Text that is matched by its tokens. -/
  | text
  deriving DecidableEq, Repr

/-- The kind's name in messages. -/
def FieldKind.label : FieldKind → String
  | long => "Long"
  | double => "Double"
  | keyword => "Keyword"
  | text => "Text"

/-- The declaration of an index field. -/
structure FieldSpec where
  /-- The field's name. -/
  name : String
  /-- The kind of its values. -/
  kind : FieldKind
  /-- Whether a hit can carry its values. -/
  stored : Bool := false
  /-- Whether hits can be ordered by it. -/
  sortable : Bool := false
  deriving DecidableEq, Repr

instance : Named FieldSpec := ⟨FieldSpec.name⟩

/-- A value of an index field. -/
inductive FieldValue where
  | long (n : Int64)
  | double (x : Double)
  | keyword (text : String)
  | text (text : String)
  deriving DecidableEq

namespace FieldValue

/-- The kind of a value. -/
def kind : FieldValue → FieldKind
  | long _ => .long
  | double _ => .double
  | keyword _ => .keyword
  | text _ => .text

/-- The text of a keyword or text value. -/
def asString? : FieldValue → Option String
  | keyword s => some s
  | text s => some s
  | _ => none

/-- The integer of a long value. -/
def asLong? : FieldValue → Option Int64
  | long n => some n
  | _ => none

/-- The number of a double value. -/
def asDouble? : FieldValue → Option Double
  | double x => some x
  | _ => none

/-- The order of two values of one kind. -/
def compare? : FieldValue → FieldValue → Option Ordering
  | long a, long b => some (compare a b)
  | double a, double b => some (compare a b)
  | keyword a, keyword b => some (compare a b)
  | text a, text b => some (compare a b)
  | _, _ => none

/-- A value in words. -/
def display : FieldValue → String
  | long n => toString n.toInt
  | double x => x.toText
  | keyword s => s
  | text s => s

instance : ToString FieldValue := ⟨display⟩

end FieldValue

end RowIndex
