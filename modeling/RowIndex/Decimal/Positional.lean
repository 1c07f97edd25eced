import RowIndex.Decimal.Shortest

/-!
# Decimal/Positional — numbers as people write them, without an exponent

A number is shown by its shortest digits in positional notation: whole numbers have no point, and
however small or large a number is, it has no exponent.
-/

namespace RowIndex

namespace Decimal

/-- The digits with zeros and a point where the exponent puts them. -/
def positional (d : Decimal) : List Char :=
  let digits := Nat.toDigits 10 d.digits
  let places := (-d.exponent).toNat
  if places = 0 then digits ++ List.replicate d.exponent.toNat '0'
  else if places < digits.length then
    digits.take (digits.length - places) ++ '.' :: digits.drop (digits.length - places)
  else '0' :: '.' :: (List.replicate (places - digits.length) '0' ++ digits)

end Decimal

namespace Binary

variable {F : BinaryFormat}

/-- The text of a number without its sign. -/
def magnitudeText (x : Binary F) : List Char :=
  if x.isInfinite then "inf".toList
  else if x.isZero then ['0']
  else (Decimal.shortest F .up x.magnitude).positional

/-- The text of a number; a pattern that is no number has no sign. -/
def toText (x : Binary F) : String :=
  if x.isNaN then "NaN"
  else String.ofList (if x.negative then '-' :: x.magnitudeText else x.magnitudeText)

end Binary

end RowIndex
