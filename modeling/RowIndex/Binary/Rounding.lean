import RowIndex.Binary.Format

/-!
# Binary/Rounding — the number nearest to an exact quotient

`BinaryFormat.nearest a b` is the code nearest to `a / b` units; of two equally near codes it takes
the even one, and codes at or above infinity's stand for infinity.  It is the only rounding of the
library: sums, products, quotients, conversions and decimal numerals all form an exact quotient
first and round it once.
-/

namespace RowIndex

/-- The whole number nearest to `a / b`, the even one of two equally near. -/
def divHalfEven (a b : Nat) : Nat :=
  let quotient := a / b
  let twice := 2 * (a % b)
  if twice < b then quotient
  else if b < twice then quotient + 1
  else quotient + quotient % 2

namespace BinaryFormat

/-- The code nearest to `a / b` units.  The quotient is cut to the bits that a significand holds,
`shift` places above the unit; the rounded significand and the exponent then add up to the code,
also where rounding carries into the next exponent. -/
def nearest (F : BinaryFormat) (a b : Nat) : Nat :=
  let shift := Nat.log2 (a / b) - F.fractionBits
  shift * 2 ^ F.fractionBits + divHalfEven a (b * 2 ^ shift)

end BinaryFormat

namespace Binary

variable {F : BinaryFormat}

/-- The number nearest to `a / b`. -/
def ofRatio (negative : Bool) (a b : Nat) : Binary F :=
  saturated negative (F.nearest (a * 2 ^ F.scale) b)

/-- The number nearest to a whole number of units. -/
def ofUnits (value : Int) : Binary F :=
  saturated (value < 0) (F.nearest value.natAbs 1)

/-- The number nearest to an integer; zero is positive. -/
def ofInt (value : Int) : Binary F :=
  ofRatio (value < 0) value.natAbs 1

/-- The number one. -/
def one : Binary F := ofInt 1

/-- A power of ten, which bounds the decimal exponents of the format's numbers: every number from
ten to this power on rounds to infinity, and every number below its reciprocal to zero. -/
def decimalReach (F : BinaryFormat) : Nat := F.scale / 3 + 1

/-- The number of decimal digits. -/
def decimalLength (n : Nat) : Nat := (Nat.toDigits 10 n).length

/-- The number nearest to `digits` times ten to the power `exponent`.  Beyond the reach of the
format the answer is known without forming the power. -/
def ofDecimal (negative : Bool) (digits : Nat) (exponent : Int) : Binary F :=
  let top := (decimalLength digits : Int) + exponent
  if digits = 0 ∨ top < -(decimalReach F : Int) then zero negative
  else if (decimalReach F : Int) < top - 1 then infinite negative
  else if 0 ≤ exponent then ofRatio negative (digits * 10 ^ exponent.toNat) 1
  else ofRatio negative digits (10 ^ (-exponent).toNat)

end Binary

end RowIndex
