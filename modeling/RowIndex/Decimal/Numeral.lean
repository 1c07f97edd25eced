import RowIndex.Binary.Rounding

/-!
# Decimal/Numeral — reading a number from text

A numeral is an optional sign and then either digits with an optional point, of which at least one
is present, and an optional exponent, or one of the words `inf`, `infinity` and `nan` in any case.
Nothing may precede or follow it.  Any number of digits is read exactly and rounded once.
-/

namespace RowIndex

/-- What a text without its sign stands for. -/
inductive Numeral where
  | nan
  | infinity
  /-- `digits` times ten to the power `exponent`. -/
  | finite (digits : Nat) (exponent : Int)
  deriving DecidableEq, Repr

namespace Numeral

/-- The number that a list of decimal digits spells. -/
def digitsValue (digits : List Char) : Nat :=
  digits.foldl (fun n c => 10 * n + (c.toNat - 48)) 0

/-- Read a whole number of at least one digit, and nothing else. -/
def readWhole? (text : List Char) : Option Nat :=
  if text ≠ [] ∧ text.all Char.isDigit then some (digitsValue text) else none

/-- Read the exponent after its mark. -/
def readExponent? : List Char → Option Int
  | '+' :: text => (readWhole? text).map Int.ofNat
  | '-' :: text => (readWhole? text).map fun n => -(n : Int)
  | text => (readWhole? text).map Int.ofNat

/-- The fraction digits at the head of a text and what follows them. -/
def readFraction : List Char → List Char × List Char
  | '.' :: text => (text.takeWhile Char.isDigit, text.dropWhile Char.isDigit)
  | text => ([], text)

/-- Read digits with an optional point and an optional exponent. -/
def readFinite? (text : List Char) : Option Numeral :=
  let whole := text.takeWhile Char.isDigit
  let (fraction, rest) := readFraction (text.dropWhile Char.isDigit)
  if whole ++ fraction = [] then none
  else
    let digits := digitsValue (whole ++ fraction)
    match rest with
    | [] => some (.finite digits (-(fraction.length : Int)))
    | mark :: rest =>
      if mark = 'e' ∨ mark = 'E' then
        (readExponent? rest).map fun e => .finite digits (e - fraction.length)
      else none

/-- Read a numeral without its sign. -/
def readUnsigned? (text : List Char) : Option Numeral :=
  let lower := text.map Char.toLower
  if lower = "nan".toList then some .nan
  else if lower = "inf".toList ∨ lower = "infinity".toList then some .infinity
  else readFinite? text

end Numeral

namespace Binary

variable {F : BinaryFormat}

/-- The number nearest to a numeral. -/
def ofNumeral (negative : Bool) : Numeral → Binary F
  | .nan => nan negative 0
  | .infinity => infinite negative
  | .finite digits exponent => ofDecimal negative digits exponent

/-- The number that a text spells, if it is a numeral. -/
def ofText? (text : String) : Option (Binary F) :=
  match text.toList with
  | '+' :: rest => (Numeral.readUnsigned? rest).map (ofNumeral false)
  | '-' :: rest => (Numeral.readUnsigned? rest).map (ofNumeral true)
  | rest => (Numeral.readUnsigned? rest).map (ofNumeral false)

end Binary

end RowIndex
