import RowIndex.Binary.Rounding

/-!
# Binary/Arithmetic — sums, products, quotients and conversions

Every operation forms its exact result and rounds it once.  An operand that is no number is passed
on, the first before the second; an operation without a result gives the negative quiet pattern.
-/

namespace RowIndex.Binary

variable {F G : BinaryFormat}

/-- A pattern that is no number, made quiet. -/
def quiet (x : Binary F) : Binary F :=
  nan x.negative (x.magnitude - F.infinity)

/-- The result of an operation that has none. -/
def invalid : Binary F := nan true 0

/-- The sum.  An exact zero is negative only if both summands are. -/
def add (x y : Binary F) : Binary F :=
  if x.isNaN then x.quiet
  else if y.isNaN then y.quiet
  else if x.isInfinite then
    if y.isInfinite ∧ x.negative ≠ y.negative then invalid else x
  else if y.isInfinite then y
  else
    let sum := x.signedUnits + y.signedUnits
    if sum = 0 then zero (x.negative && y.negative) else ofUnits sum

/-- The product. -/
def mul (x y : Binary F) : Binary F :=
  let sign := x.negative != y.negative
  if x.isNaN then x.quiet
  else if y.isNaN then y.quiet
  else if x.isInfinite || y.isInfinite then
    if x.isZero || y.isZero then invalid else infinite sign
  else saturated sign (F.nearest (x.units * y.units) (2 ^ F.scale))

/-- The quotient of two finite numbers, the second not zero. -/
def div (x y : Binary F) : Binary F :=
  ofRatio (x.negative != y.negative) x.units y.units

instance : Add (Binary F) := ⟨add⟩
instance : Mul (Binary F) := ⟨mul⟩

/-- The nearest number of another format; a pattern that is no number keeps its sign and the upper
bits of its payload. -/
def convert (x : Binary F) : Binary G :=
  if x.isNaN then
    nan x.negative ((x.magnitude - F.infinity) * 2 ^ G.fractionBits / 2 ^ F.fractionBits)
  else if x.isInfinite then infinite x.negative
  else ofRatio x.negative x.units (2 ^ F.scale)

/-- The integer between `low` and `high` nearest to the number cut at the point; zero for a pattern
that is no number. -/
def toIntBetween (low high : Int) (x : Binary F) : Int :=
  if x.isNaN then 0
  else if x.isInfinite then if x.negative then low else high
  else
    let whole : Int := (x.units / 2 ^ F.scale : Nat)
    max low (min high (if x.negative then -whole else whole))

end RowIndex.Binary
