import RowIndex.Index.Basic

/-!
# Index/Layout — how the inverted index holds each field

The form of a field is fixed when the index is created: numbers, text taken as a whole, or text
taken word by word.  Declarations are bound to an existing layout by `bind`, which checks that the
form suits the declared kind; both forms of text suit keywords and texts.
-/

namespace RowIndex

/-- The form in which a field is held. -/
inductive FieldForm where
  | long
  | double
  /-- Text as a single token. -/
  | whole
  /-- Text by its words. -/
  | words
  deriving DecidableEq, Repr

namespace FieldForm

/-- The form of a field created for values of a kind. -/
def ofKind : FieldKind → FieldForm
  | .long => long
  | .double => double
  | .keyword => whole
  | .text => words

/-- Whether values of a kind can be held in the form. -/
def suits : FieldForm → FieldKind → Bool
  | long, .long => true
  | double, .double => true
  | whole, .keyword | whole, .text | words, .keyword | words, .text => true
  | _, _ => false

/-- The tokens of a text in the form, however long; none if the form is not one of text. -/
def tokens? : FieldForm → Option (String → List String)
  | long | double => none
  | whole => some fun text => [text]
  | words => some Text.analyzeIndexed

end FieldForm

/-- How one field is held. -/
structure FieldLayout where
  /-- The field's name. -/
  name : String
  /-- The form of its values. -/
  form : FieldForm
  /-- Whether values can be loaded. -/
  stored : Bool
  /-- Whether the engine can order by the field without loading it. -/
  fast : Bool
  deriving DecidableEq, Repr

instance : Named FieldLayout := ⟨FieldLayout.name⟩

/-- The layout of a newly declared field.  Sortable fields are stored, so that loaded hits can be
ordered again; numbers are always fast, keywords if they are sortable. -/
def FieldSpec.layout (spec : FieldSpec) : FieldLayout where
  name := spec.name
  form := .ofKind spec.kind
  stored := spec.stored || spec.sortable
  fast :=
    match spec.kind with
    | .long | .double => true
    | .keyword => spec.sortable
    | .text => false

/-- A declared field and how it is held. -/
structure BoundField where
  /-- The kind of the field's values. -/
  kind : FieldKind
  /-- How the field is held. -/
  layout : FieldLayout
  deriving DecidableEq, Repr

instance : Named BoundField := ⟨fun f => f.layout.name⟩

/-- The layout of all fields of an index. -/
abbrev Layout := NameMap FieldLayout

/-- The declared fields of an inverted index, bound to its layout. -/
abbrev Bindings := NameMap BoundField

namespace Layout

/-- The layout of a list of declarations, none of which may repeat a name. -/
def ofSpecs (specs : List FieldSpec) : Except Error Layout :=
  (Declarations.ofList specs).map fun _ => .ofList (specs.map FieldSpec.layout)

/-- Bind one declaration. -/
def bindField (l : Layout) (spec : FieldSpec) : Except Error BoundField :=
  match l.find? spec.name with
  | none => .error (.absentField spec.name)
  | some held =>
    if held.form.suits spec.kind then .ok ⟨spec.kind, held⟩
    else .error (.differentField spec.name spec.kind)

/-- Bind declarations, in order, to a layout. -/
def bind (l : Layout) (specs : List FieldSpec) : Except Error Bindings :=
  (specs.mapM l.bindField).map NameMap.ofList

/-- The bindings of a list of declarations to the layout made for them. -/
def build (specs : List FieldSpec) : Except Error (Layout × Bindings) := do
  let layout ← ofSpecs specs
  let bindings ← layout.bind specs
  return (layout, bindings)

end Layout

/-- Bindings in words. -/
def Bindings.describe (b : Bindings) : String :=
  "TantivySchema \x7b field_count: " ++ toString b.size ++ " \x7d"

/-- The declared field of a given name. -/
def Bindings.require (b : Bindings) (name : String) : Except Error BoundField :=
  match b.find? name with
  | some f => .ok f
  | none => .error (.undeclaredField name)

end RowIndex
