import RowIndex.Index.Layout

/-!
# Index/Term — what the engine compares

The engine knows no values, only terms: a number by a code, a text by its bytes.  Each value of a
document gives tokens, as the layout of its field has it, and those that are short enough are the
terms under which the engine finds the document.
-/

namespace RowIndex

/-- A term of a field. -/
inductive IndexTerm where
  /-- A number, by its code. -/
  | number (code : Nat)
  /-- A text, by its bytes. -/
  | text (bytes : Bytes)
  deriving DecidableEq

namespace IndexTerm

/-- The greatest length of a text that the engine takes in, in bytes. -/
def maxLength : Nat := 65530

/-- Whether the engine takes the term in; longer ones it leaves out of the index. -/
def fits : IndexTerm → Bool
  | number _ => true
  | text bytes => bytes.length ≤ maxLength

/-- The order of the terms of one field: numbers by their codes, texts byte by byte. -/
def order : IndexTerm → IndexTerm → Ordering
  | number a, number b => compare a b
  | text a, text b => compare a b
  | number _, text _ => .lt
  | text _, number _ => .gt

/-- Whether a term lies above a lower bound. -/
def isAbove (t : IndexTerm) : Bound IndexTerm → Bool
  | .unbounded => true
  | .included b => (b.order t).isLE
  | .excluded b => (b.order t).isLT

/-- Whether a term lies below an upper bound. -/
def isBelow (t : IndexTerm) : Bound IndexTerm → Bool
  | .unbounded => true
  | .included b => (t.order b).isLE
  | .excluded b => (t.order b).isLT

end IndexTerm

/-- The term of a value.  The code of a number keeps the order of numbers: an integer is counted
from the least one, and the bits of a floating-point number are read as an integer whose order is
that of the patterns. -/
def FieldValue.indexTerm : FieldValue → IndexTerm
  | long n => .number (n.toInt + 2 ^ 63).toNat
  | double x => .number (if x.negative then 2 ^ 64 - 1 - x.toBits else 2 ^ 63 + x.toBits)
  | keyword s | text s => .text (Hex.utf8 s)

namespace BoundField

/-- The tokens of the field in a document: its numbers, or the tokens of its texts. -/
def tokens (f : BoundField) (d : Document) : List IndexTerm :=
  match f.layout.form.tokens? with
  | none => (d.values f.layout.name).map FieldValue.indexTerm
  | some tokens =>
    (((d.values f.layout.name).filterMap FieldValue.asString?).flatMap tokens).map
      fun token => .text (Hex.utf8 token)

/-- The terms of the field under which the engine finds a document. -/
def terms (f : BoundField) (d : Document) : List IndexTerm := (f.tokens d).filter IndexTerm.fits

/-- The term of a value that is looked for in the field. -/
def term (f : BoundField) (v : FieldValue) : Except Error IndexTerm :=
  if f.kind = v.kind ∧ f.kind ≠ .text then .ok v.indexTerm
  else .error (.unusableTerm v.display f.kind)

/-- A bound of values as one of terms. -/
def bound (f : BoundField) : Bound FieldValue → Except Error (Bound IndexTerm)
  | .unbounded => .ok .unbounded
  | .included v => (f.term v).map .included
  | .excluded v => (f.term v).map .excluded

end BoundField

end RowIndex
