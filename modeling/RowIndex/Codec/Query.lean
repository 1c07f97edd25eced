import RowIndex.Codec.Document
import RowIndex.Query

/-!
# Codec/Query — the JSON forms of bounds and queries

The variant of a query is the name of the only member of an object, and the query's fields are a
record below it.
-/

namespace RowIndex

open Codec

instance {α : Type} [Codec α] : Codec (Bound α) where
  encode
    | .unbounded => .ofText "Unbounded"
    | .included a => .ofMembers [("Included", encode a)]
    | .excluded a => .ofMembers [("Excluded", encode a)]
  decode
    | room + 1, .object [(some "Included", j)] => (decode room j).map .included
    | room + 1, .object [(some "Excluded", j)] => (decode room j).map .excluded
    | room, j => if variantName? room j = some "Unbounded" then some .unbounded else none

namespace Query

mutual

/-- The tree of a query. -/
def toJson : Query → Json
  | all => .ofText "all"
  | term field value =>
    .ofMembers [("term", .ofMembers [("field", encode field), ("value", encode value)])]
  | range field lower upper =>
    .ofMembers [("range",
      .ofMembers [("field", encode field), ("lower", encode lower), ("upper", encode upper)])]
  | matching field text =>
    .ofMembers [("match", .ofMembers [("field", encode field), ("text", encode text)])]
  | boolean must should mustNot =>
    .ofMembers [("boolean", .ofMembers
      [("must", .array (listToJson must)), ("should", .array (listToJson should)),
        ("must_not", .array (listToJson mustNot))])]
  | boost query factor =>
    .ofMembers [("boost", .ofMembers [("query", toJson query), ("boost", encode factor)])]

/-- The trees of a list of queries. -/
def listToJson : List Query → List Json
  | [] => []
  | q :: rest => toJson q :: listToJson rest

end

/-- Decode the record of a variant whose fields hold no queries. -/
def ofLeaf? (variant : String) (room : Nat) (j : Json) : Option Query :=
  match variant with
  | "term" => do
    let r ← Record.of? ["field", "value"] j
    let field ← (r "field").required (decode room)
    let value ← (r "value").required (decode room)
    return term field value
  | "range" => do
    let r ← Record.of? ["field", "lower", "upper"] j
    let field ← (r "field").required (decode room)
    let lower ← (r "lower").required (decode room)
    let upper ← (r "upper").required (decode room)
    return range field lower upper
  | "match" => do
    let r ← Record.of? ["field", "text"] j
    let field ← (r "field").required (decode room)
    let text ← (r "text").required (decode room)
    return matching field text
  | _ => none

/-- The query of a tree. -/
def ofJson? : (room : Nat) → Json → Option Query
  | room + 3, .object [(some "boolean", j)] => do
    let r ← Record.of? ["must", "should", "must_not"] j
    let must ← (r "must").required (decodeItems (ofJson? room))
    let should ← (r "should").required (decodeItems (ofJson? room))
    let mustNot ← (r "must_not").required (decodeItems (ofJson? room))
    return boolean must should mustNot
  | room + 2, .object [(some "boost", j)] => do
    let r ← Record.of? ["query", "boost"] j
    let query ← (r "query").required (ofJson? room)
    let factor ← (r "boost").required (decode room)
    return boost query factor
  | room, j =>
    if variantName? room j = some "all" then some all
    else
      match room, j with
      | room + 2, .object [(some variant, j)] => ofLeaf? variant room j
      | _, _ => none

instance : Codec Query where
  encode := toJson
  decode := ofJson?

end Query

end RowIndex
