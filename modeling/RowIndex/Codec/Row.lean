import RowIndex.Codec.Record
import RowIndex.Row

/-!
# Codec/Row — the JSON forms of values, keys, cells, mutations and tables
-/

namespace RowIndex

open Codec

/-! ## Values -/

/-- The name of a type in JSON. -/
def CellType.tag : CellType → String
  | ascii => "ascii"
  | text => "text"
  | int => "int"
  | bigInt => "big_int"
  | varInt => "var_int"
  | float => "float"
  | double => "double"
  | decimal => "decimal"
  | boolean => "boolean"
  | blob => "blob"

instance : Codec CellType where
  encode t := .ofText t.tag
  decode := decodeVariant CellType.all CellType.tag

/-- Decode a wide integer, which cannot be held back. -/
def decodeWide (heldBack : Bool) (j : Json) : Option Int128 :=
  if heldBack then none else decode 0 j

namespace Value

/-- The content of a value. -/
def content : Value → Json
  | int n => encode n
  | bigInt n => encode n
  | varInt n => encode n
  | float x => encode x
  | double x => encode x
  | decimal s => encode s
  | text s => encode s
  | boolean flag => encode flag
  | blob bytes => encode bytes

/-- The value of a content that is tagged with a type; no value is known to be ASCII. -/
def ofContent? (type : CellType) (heldBack : Bool) (room : Nat) (j : Json) : Option Value :=
  match type with
  | .ascii => none
  | .int => (decode room j).map int
  | .bigInt => (decode room j).map bigInt
  | .varInt => (decodeWide heldBack j).map varInt
  | .float => (decode room j).map float
  | .double => (decode room j).map double
  | .decimal => (decode room j).map decimal
  | .text => (decode room j).map text
  | .boolean => (decode room j).map boolean
  | .blob => (decode room j).map blob

instance : Codec Value where
  encode v := Tagged.encode "type" "value" v.cellType.tag v.content
  decode room j := do
    let t ← Tagged.of? "type" "value" room j
    let type ← CellType.all.find? (·.tag == t.tag)
    ofContent? type t.heldBack (room - 1) t.content

end Value

/-! ## Keys -/

/-- All partitioners. -/
def Partitioner.all : List Partitioner := [murmur3, random, byteOrdered]

instance : Codec Partitioner where
  encode p := .ofText p.name
  decode := decodeVariant Partitioner.all Partitioner.name

namespace Token

/-- The content of a token. -/
def content : Token → Json
  | murmur3 hash => encode hash
  | random hash => encode hash
  | byteOrdered bytes => encode bytes

/-- The token of a content that is tagged with a partitioner. -/
def ofContent? (p : Partitioner) (heldBack : Bool) (room : Nat) (j : Json) : Option Token :=
  match p with
  | .murmur3 => (decode room j).map murmur3
  | .random => (decodeWide heldBack j).map random
  | .byteOrdered => (decode room j).map byteOrdered

instance : Codec Token where
  encode t := Tagged.encode "partitioner" "value" t.partitioner.name t.content
  decode room j := do
    let t ← Tagged.of? "partitioner" "value" room j
    let p ← Partitioner.all.find? (·.name == t.tag)
    ofContent? p t.heldBack (room - 1) t.content

end Token

instance : Codec Key where
  encode k := .ofMembers [("token", encode k.token), ("key", encode k.bytes)]
  decode
    | 0, _ => none
    | room + 1, j => do
      let r ← Record.of? ["token", "key"] j
      let token ← (r "token").required (decode room)
      let bytes ← (r "key").required (decode room)
      return { token, bytes }

/-! ## Cells and mutations -/

instance : Codec Cell where
  encode c := .ofMembers
    [("name", encode c.name), ("value", encodeOption c.value), ("timestamp", encode c.timestamp)]
  decode
    | 0, _ => none
    | room + 1, j => do
      let r ← Record.of? ["name", "value", "timestamp"] j
      let name ← (r "name").required (decode room)
      let value ← (r "value").optional (decode room)
      let timestamp ← (r "timestamp").required (decode room)
      return { name, value, timestamp }

instance : Codec Deletion where
  encode d := .ofMembers [("marked_for_delete_at", encode d.markedAt)]
  decode
    | 0, _ => none
    | room + 1, j => do
      let r ← Record.of? ["marked_for_delete_at"] j
      let markedAt ← (r "marked_for_delete_at").required (decode room)
      return { markedAt }

instance : Codec Mutation where
  encode m := .ofMembers [("deletion", encodeOption m.deletion), ("columns", encode m.cells)]
  decode
    | 0, _ => none
    | room + 1, j => do
      let r ← Record.of? ["deletion", "columns"] j
      let deletion ← (r "deletion").optional (decode room)
      let cells ← (r "columns").required (decode room)
      return { deletion, cells }

/-! ## Tables -/

instance : Codec Column where
  encode c := .ofMembers [("name", encode c.name), ("type", encode c.type)]
  decode
    | 0, _ => none
    | room + 1, j => do
      let r ← Record.of? ["name", "type"] j
      let name ← (r "name").required (decode room)
      let type ← (r "type").required (decode room)
      return { name, type }

instance : Codec Table where
  encode t := .ofMembers [("name", encode t.name), ("columns", encode t.columns)]
  decode
    | 0, _ => none
    | room + 1, j => do
      let r ← Record.of? ["name", "columns"] j
      let name ← (r "name").required (decode room)
      let columns ← (r "columns").required (decode room)
      return { name, columns }

end RowIndex
