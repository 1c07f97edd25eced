import RowIndex.Int128
import RowIndex.Json.Number
import RowIndex.Json.Parser
import RowIndex.Json.Printer

/-!
# Codec/Basic — types with a JSON form

`encode` gives the one tree by which a value is written; `decode` accepts that tree and others that
mean the same.  Arrays and objects that a decoder looks into may be nested `maxNesting` deep: every
decoder is given the room that is left, and each array or object takes one from it.
-/

namespace RowIndex

/-- A type with a JSON form. -/
class Codec (α : Type) where
  /-- The tree of a value. -/
  encode : α → Json
  /-- The value of a tree, in which that many arrays and objects may be nested. -/
  decode : (room : Nat) → Json → Option α

namespace Codec

/-- How deep arrays and objects may be nested. -/
def maxNesting : Nat := 127

/-- A value as compact JSON text. -/
def write {α : Type} [Codec α] (a : α) : String := (encode a).toText

/-- The value that a JSON text stands for. -/
def read? {α : Type} [Codec α] (text : String) : Option α :=
  (Json.ofText? text).bind (decode maxNesting)

/-! ## Plain values -/

instance : Codec Bool where
  encode := .bool
  decode
    | _, .bool flag => some flag
    | _, _ => none

instance : Codec String where
  encode := .ofText
  decode
    | _, .string text => text
    | _, _ => none

/-- An integer within bounds. -/
def integerBetween? (low high : Int) : Json → Option Int
  | .number n => n.integer?.filter fun i => low ≤ i && i ≤ high
  | _ => none

instance : Codec Int32 where
  encode n := .number (.ofInt n.toInt)
  decode _ j := (integerBetween? (-2 ^ 31) (2 ^ 31 - 1) j).map Int32.ofInt

instance : Codec Int64 where
  encode n := .number (.ofInt n.toInt)
  decode _ j := (integerBetween? (-2 ^ 63) (2 ^ 63 - 1) j).map Int64.ofInt

instance : Codec UInt8 where
  encode n := .number (.ofInt n.toNat)
  decode _ j := (integerBetween? 0 (2 ^ 8 - 1) j).map fun i => UInt8.ofNat i.toNat

instance : Codec UInt64 where
  encode n := .number (.ofInt n.toNat)
  decode _ j := (integerBetween? 0 (2 ^ 64 - 1) j).map fun i => UInt64.ofNat i.toNat

/-- Wide integers may have a sign without a value. -/
instance : Codec Int128 where
  encode n := .number (.ofInt n.val)
  decode
    | _, .number n => n.plain?.bind Int128.ofInt?
    | _, _ => none

instance : Codec Single where
  encode := Binary.toJson
  decode
    | _, .number n => n.single?
    | _, _ => none

instance : Codec Double where
  encode := Binary.toJson
  decode
    | _, .number n => n.double?
    | _, _ => none

/-! ## Options and lists -/

/-- The tree of a value that may be missing. -/
def encodeOption {α : Type} [Codec α] : Option α → Json
  | none => .null
  | some a => encode a

/-- Decode the items of an array by a decoder for what is nested in it. -/
def decodeItems {α : Type} (item : Json → Option α) : Json → Option (List α)
  | .array items => items.mapM item
  | _ => none

instance {α : Type} [Codec α] : Codec (List α) where
  encode items := .array (items.map encode)
  decode
    | 0, _ => none
    | room + 1, j => decodeItems (decode room) j

end Codec

end RowIndex
