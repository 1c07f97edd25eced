import RowIndex.Codec.Record
import RowIndex.Document
import RowIndex.SortOrder

/-!
# Codec/Document — the JSON forms of fields, documents, terms and orders
-/

namespace RowIndex

open Codec

namespace FieldKind

/-- All kinds. -/
def all : List FieldKind := [long, double, keyword, text]

/-- The name of a kind in JSON. -/
def tag : FieldKind → String
  | long => "long"
  | double => "double"
  | keyword => "keyword"
  | text => "text"

instance : Codec FieldKind where
  encode k := .ofText k.tag
  decode := decodeVariant all tag

end FieldKind

instance : Codec FieldSpec where
  encode s := .ofMembers
    [("name", encode s.name), ("kind", encode s.kind), ("stored", encode s.stored),
      ("sortable", encode s.sortable)]
  decode
    | 0, _ => none
    | room + 1, j => do
      let r ← Record.of? ["name", "kind", "stored", "sortable"] j
      let name ← (r "name").required (decode room)
      let kind ← (r "kind").required (decode room)
      let stored ← (r "stored").required (decode room)
      let sortable ← (r "sortable").required (decode room)
      return { name, kind, stored, sortable }

namespace FieldValue

/-- The content of a value. -/
def content : FieldValue → Json
  | long n => encode n
  | double x => encode x
  | keyword s => encode s
  | text s => encode s

/-- The value of a content that is tagged with a kind. -/
def ofContent? (kind : FieldKind) (room : Nat) (j : Json) : Option FieldValue :=
  match kind with
  | .long => (decode room j).map long
  | .double => (decode room j).map double
  | .keyword => (decode room j).map keyword
  | .text => (decode room j).map text

instance : Codec FieldValue where
  encode v := Tagged.encode "kind" "value" v.kind.tag v.content
  decode room j := do
    let t ← Tagged.of? "kind" "value" room j
    let kind ← FieldKind.all.find? (·.tag == t.tag)
    ofContent? kind (room - 1) t.content

end FieldValue

instance : Codec Field where
  encode f := .ofMembers [("name", encode f.name), ("value", encode f.value)]
  decode
    | 0, _ => none
    | room + 1, j => do
      let r ← Record.of? ["name", "value"] j
      let name ← (r "name").required (decode room)
      let value ← (r "value").required (decode room)
      return { name, value }

instance : Codec Term where
  encode t := .ofMembers [("field", encode t.field), ("text", encode t.text)]
  decode
    | 0, _ => none
    | room + 1, j => do
      let r ← Record.of? ["field", "text"] j
      let field ← (r "field").required (decode room)
      let text ← (r "text").required (decode room)
      return { field, text }

instance : Codec Document where
  encode d := .ofMembers [("fields", encode d.fields)]
  decode
    | 0, _ => none
    | room + 1, j => do
      let r ← Record.of? ["fields"] j
      let fields ← (r "fields").required (decode room)
      return { fields }

instance : Codec Criterion where
  encode c := .ofMembers [("field", encode c.field), ("reverse", encode c.reverse)]
  decode
    | 0, _ => none
    | room + 1, j => do
      let r ← Record.of? ["field", "reverse"] j
      let field ← (r "field").required (decode room)
      let reverse ← (r "reverse").withDefault false (decode room)
      return { field, reverse }

instance : Codec SortOrder where
  encode s := .ofMembers [("criteria", encode s.criteria)]
  decode
    | 0, _ => none
    | room + 1, j => do
      let r ← Record.of? ["criteria"] j
      let criteria ← (r "criteria").required (decode room)
      return { criteria }

end RowIndex
