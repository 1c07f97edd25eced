import RowIndex.Field

/-!
# Document — what is indexed for one row

A document is a list of named values; a name may repeat.  A `Term` identifies documents: those that
hold its text as a keyword of its field.
-/

namespace RowIndex

/-- A named value of a document. -/
structure Field where
  /-- The field's name. -/
  name : String
  /-- The value. -/
  value : FieldValue
  deriving DecidableEq

/-- A keyword that identifies documents. -/
structure Term where
  /-- The keyword field. -/
  field : String
  /-- The keyword. -/
  text : String
  deriving DecidableEq

/-- A term in words. -/
def Term.display (t : Term) : String := t.field ++ ":" ++ t.text

instance : ToString Term := ⟨Term.display⟩

/-- A document: its fields in the order in which they were added. -/
structure Document where
  /-- The fields. -/
  fields : List Field := []
  deriving DecidableEq, Inhabited

namespace Document

/-- The document with more fields at its end. -/
def append (d : Document) (fields : List Field) : Document := ⟨d.fields ++ fields⟩

/-- All values of a field, in order. -/
def values (d : Document) (name : String) : List FieldValue :=
  (d.fields.filter (·.name == name)).map Field.value

/-- The first value of a field. -/
def first? (d : Document) (name : String) : Option FieldValue := (d.values name).head?

/-- Whether the term identifies the document. -/
def hasTerm (d : Document) (t : Term) : Bool := (d.values t.field).contains (.keyword t.text)

/-- The document cut down to the fields of the given names. -/
def project (d : Document) (names : NameSet) : Document :=
  ⟨d.fields.filter fun f => names.contains f.name⟩

end Document

/-- A document found by a search. -/
structure Hit where
  /-- The fields that the hit carries. -/
  document : Document
  /-- How well it matches. -/
  score : Single
  deriving DecidableEq

end RowIndex
