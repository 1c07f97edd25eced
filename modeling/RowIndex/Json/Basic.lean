/-!
# Json/Basic — JSON texts as trees

A tree keeps what a text says and drops how it is laid out: blanks, the case of digits in escapes
and the sign of a positive exponent are gone, while the order of members, repeated names and the
digits of numbers stay.  Whether a tree is usable is for its readers to say; a number too large for
every type, or a string with half of a surrogate pair, is a tree like any other.
-/

namespace RowIndex

namespace Json

/-- A number as it is written. -/
structure Number where
  /-- Whether there is a minus sign. -/
  negative : Bool := false
  /-- The part before the point. -/
  whole : Nat
  /-- The digits after the point; without digits there is no point. -/
  fraction : List (Fin 10) := []
  /-- The exponent, if one is written. -/
  exponent : Option Int := none
  deriving DecidableEq, Repr

/-- An integer as a number. -/
def Number.ofInt (n : Int) : Number := { negative := n < 0, whole := n.natAbs }

end Json

/-- A JSON text. -/
inductive Json where
  | null
  | bool (flag : Bool)
  | number (n : Json.Number)
  /-- A string; none if it holds half of a surrogate pair, which is no text. -/
  | string (text : Option String)
  | array (items : List Json)
  /-- An object with its members in order; names may repeat. -/
  | object (members : List (Option String × Json))
  deriving Inhabited

namespace Json

/-- A text as a string. -/
def ofText (text : String) : Json := string (some text)

/-- An object of members with proper names. -/
def ofMembers (members : List (String × Json)) : Json :=
  object (members.map fun m => (some m.1, m.2))

end Json

end RowIndex
