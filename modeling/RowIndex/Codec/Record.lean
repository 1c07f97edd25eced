import RowIndex.Codec.Basic

/-!
# Codec/Record — records and tagged values

A record is an object with members of known names, in any order, or an array of its fields in the
order of their declaration.  Members of other names mean nothing.  No known name may repeat.

A value of several variants carries a tag.  Where the content of a variant is read before its tag is
known, it is held back; what is held back must be sound throughout, also in parts that are not used.
-/

namespace RowIndex

mutual

/-- Whether all strings of a tree are text, its numbers of bounded size, and its arrays and objects
nested no deeper than there is room. -/
def Json.isSound : (room : Nat) → Json → Bool
  | _, .null => true
  | _, .bool _ => true
  | _, .number n => n.double?.isSome
  | _, .string text => text.isSome
  | 0, .array _ => false
  | room + 1, .array items => Json.areSound room items
  | 0, .object _ => false
  | room + 1, .object members => Json.areSoundMembers room members

/-- Whether all trees of a list are sound. -/
def Json.areSound : (room : Nat) → List Json → Bool
  | _, [] => true
  | room, item :: rest => Json.isSound room item && Json.areSound room rest

/-- Whether all members of an object are sound. -/
def Json.areSoundMembers : (room : Nat) → List (Option String × Json) → Bool
  | _, [] => true
  | room, (name, value) :: rest =>
    name.isSome && Json.isSound room value && Json.areSoundMembers room rest

end

namespace Codec

/-! ## Records -/

/-- What a record holds of one field. -/
inductive Slot where
  /-- The field is there. -/
  | given (j : Json)
  /-- The object has no member of that name. -/
  | absent
  /-- The array has ended before. -/
  | ended

namespace Slot

variable {α : Type}

/-- A field that must be there. -/
def required (decode : Json → Option α) : Slot → Option α
  | given j => decode j
  | absent | ended => none

/-- A field with a default. -/
def withDefault (default : α) (decode : Json → Option α) : Slot → Option α
  | given j => decode j
  | absent | ended => some default

/-- Decode what may be null. -/
def nullable (decode : Json → Option α) : Json → Option (Option α)
  | .null => some none
  | j => (decode j).map some

/-- A field that may be null, and missing from an object. -/
def optional (decode : Json → Option α) : Slot → Option (Option α)
  | given j => nullable decode j
  | absent => some none
  | ended => none

end Slot

/-- The fields of a record, by name. -/
abbrev Record := String → Slot

namespace Record

/-- The record of the members of an object, given the names of its fields. -/
def ofMembers? (names : List String) (members : List (Option String × Json)) : Option Record :=
  let found := (members.filterMap Prod.fst).filter names.contains
  if members.all (·.1.isSome) ∧ found.Nodup then
    some fun name => ((members.lookup (some name)).map Slot.given).getD .absent
  else none

/-- The record of the items of an array, given the names of its fields in order. -/
def ofItems? (names : List String) (items : List Json) : Option Record :=
  if items.length ≤ names.length then
    some fun name => (((names.zip items).lookup name).map Slot.given).getD .ended
  else none

/-- The record of a tree. -/
def of? (names : List String) : Json → Option Record
  | .object members => ofMembers? names members
  | .array items => ofItems? names items
  | _ => none

end Record

/-! ## Tags -/

/-- The name of a variant without content, alone or as the only member of an object. -/
def variantName? : (room : Nat) → Json → Option String
  | _, .string name => name
  | _ + 1, .object [(name, .null)] => name
  | _, _ => none

/-- The variant without content of a given name. -/
def decodeVariant {α : Type} (all : List α) (name : α → String) (room : Nat) (j : Json) :
    Option α :=
  (variantName? room j).bind fun s => all.find? (name · == s)

/-- A tag with a content. -/
structure Tagged where
  /-- The tag. -/
  tag : String
  /-- The content. -/
  content : Json
  /-- Whether the content stood before the tag and was held back. -/
  heldBack : Bool := false

namespace Tagged

/-- A tag and its content as two members of an object. -/
def encode (tagName contentName tag : String) (content : Json) : Json :=
  .ofMembers [(tagName, .ofText tag), (contentName, content)]

/-- A tag and its content from the members of an object. -/
def ofMembers? (tagName contentName : String) (room : Nat)
    (members : List (Option String × Json)) : Option Tagged :=
  if members.all (·.1.isSome) then
    match members.filter fun m => m.1 = some tagName ∨ m.1 = some contentName with
    | [(first, j), (second, k)] =>
      if first = some tagName ∧ second = some contentName then
        (variantName? room j).map fun tag => { tag, content := k }
      else if first = some contentName ∧ second = some tagName ∧ j.isSound room then
        (variantName? room k).map fun tag => { tag, content := j, heldBack := true }
      else none
    | _ => none
  else none

/-- A tag and its content. -/
def of? (tagName contentName : String) : (room : Nat) → Json → Option Tagged
  | room + 1, .object members => ofMembers? tagName contentName room members
  | room + 1, .array [tag, content] => (variantName? room tag).map fun tag => { tag, content }
  | _, _ => none

end Tagged

/-- A tag among the members of an object or at the head of an array, and what remains without it,
which was held back. -/
def untag? (tagName : String) : (room : Nat) → Json → Option (String × Json)
  | room + 1, .object members =>
    match members.partition fun m => m.1 = some tagName with
    | ([(_, .string (some tag))], rest) =>
      if Json.areSoundMembers room rest then some (tag, .object rest) else none
    | _ => none
  | room + 1, .array (.string (some tag) :: rest) =>
    if Json.areSound room rest then some (tag, .array rest) else none
  | _, _ => none

end Codec

end RowIndex
