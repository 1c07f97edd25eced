import RowIndex.Codec.Record
import RowIndex.Service.Definition

/-!
# Codec/Definition — the JSON forms of mappers, schemas, settings and definitions
-/

namespace RowIndex

open Codec

namespace Mapper

instance : Codec Mapper where
  encode m := .ofMembers <|
    ("type", .ofText m.typeName) ::
      (match m.type with
        | .string caseSensitive => [("case_sensitive", encode caseSensitive)]
        | _ => []) ++
      [("boost", encode m.boost)]
  decode room j := do
    let (tag, rest) ← untag? "type" room j
    let plain (type : MapperType) : Option Mapper := do
      let r ← Record.of? ["boost"] rest
      let boost ← (r "boost").withDefault Binary.one (decode 0)
      return { type, boost }
    match tag with
    | "integer" => plain .integer
    | "long" => plain .long
    | "float" => plain .float
    | "double" => plain .double
    | "string" => do
      let r ← Record.of? ["case_sensitive", "boost"] rest
      let caseSensitive ← (r "case_sensitive").withDefault false (decode 0)
      let boost ← (r "boost").withDefault Binary.one (decode 0)
      return { type := .string caseSensitive, boost }
    | "text" => plain .text
    | "boolean" => plain .boolean
    | "blob" => plain .blob
    | _ => none

end Mapper

namespace Schema

/-- Decode the mappers of an object by the names of its members; of several with one name the last
counts. -/
def decodeFields : (room : Nat) → Json → Option (NameMap MappedField)
  | room + 1, .object members =>
    let fields := members.mapM fun (name, j) => do
      let mapper ← decode room j
      return { name := ← name, mapper : MappedField }
    fields.map NameMap.ofList
  | _, _ => none

instance : Codec Schema where
  encode s := .ofMembers
    [("fields", .ofMembers (s.fields.entries.map fun f => (f.name, encode f.mapper)))]
  decode
    | 0, _ => none
    | room + 1, j => do
      let r ← Record.of? ["fields"] j
      let fields ← (r "fields").withDefault .empty (decodeFields room)
      return { fields }

end Schema

instance : Codec Settings where
  encode s := .ofMembers
    [("backend", encode s.backend), ("path", encodeOption s.path),
      ("ram_buffer_mb", encode s.ramBufferMb), ("auto_commit", encode s.autoCommit)]
  decode
    | 0, _ => none
    | room + 1, j => do
      let r ← Record.of? ["backend", "path", "ram_buffer_mb", "auto_commit"] j
      let defaults : Settings := {}
      let backend ← (r "backend").withDefault defaults.backend (decode room)
      let path ← (r "path").withDefault defaults.path (Slot.nullable (decode room))
      let ramBufferMb ← (r "ram_buffer_mb").withDefault defaults.ramBufferMb (decode room)
      let autoCommit ← (r "auto_commit").withDefault defaults.autoCommit (decode room)
      return { backend, path, ramBufferMb, autoCommit }

instance : Codec Definition where
  encode d := .ofMembers
    [("column", encode d.column), ("schema", encode d.schema), ("settings", encode d.settings)]
  decode
    | 0, _ => none
    | room + 1, j => do
      let r ← Record.of? ["column", "schema", "settings"] j
      let defaults : Definition := {}
      let column ← (r "column").withDefault defaults.column (decode room)
      let schema ← (r "schema").withDefault defaults.schema (decode room)
      let settings ← (r "settings").withDefault defaults.settings (decode room)
      return { column, schema, settings }

end RowIndex
