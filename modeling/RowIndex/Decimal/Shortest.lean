import RowIndex.Binary.Rounding

/-!
# Decimal/Shortest — the fewest digits that read back as the same number

Of the decimal numerals that round to a given finite number, `shortest` takes one with the fewest
digits, and of those the one nearest to the number; `Tie` decides between two equally near ones.
The two neighbours of the number on each decimal grid are tried, coarsest grid first, so the search
needs nothing but exact arithmetic and the reading function itself.
-/

namespace RowIndex

/-- A decimal numeral, `digits` times ten to the power `exponent`. -/
structure Decimal where
  /-- The digits, read as a whole number. -/
  digits : Nat
  /-- The power of ten of the last digit. -/
  exponent : Int
  deriving DecidableEq, Repr

namespace Decimal

/-- Which of two equally near numerals is taken. -/
inductive Tie where
  /-- The greater one. -/
  | up
  /-- The one with the even last digit. -/
  | even
  deriving DecidableEq, Repr

/-- Whether the greater of two neighbours is taken, `twice` the distance to the lower one being
given with the distance `step` between the two. -/
def Tie.takesAbove (tie : Tie) (below twice step : Nat) : Bool :=
  if twice = step then
    match tie with
    | .up => true
    | .even => below % 2 = 1
  else step < twice

/-- Move zeros at the end of the digits into the exponent; `fuel` bounds their number. -/
def strip : (fuel : Nat) → Decimal → Decimal
  | 0, d => d
  | fuel + 1, d =>
    if d.digits ≠ 0 ∧ d.digits % 10 = 0 then strip fuel ⟨d.digits / 10, d.exponent + 1⟩ else d

/-- The decimal exponent of the first digit of `a / b`, for positive `a` and `b`. -/
def leadingExponent (a b : Nat) : Int :=
  if b ≤ a then (Binary.decimalLength (a / b) : Int) - 1
  else -(Binary.decimalLength ((b - 1) / a) : Int)

variable (F : BinaryFormat)

/-- Whether `digits` times ten to the power `exponent` rounds to the positive number with the given
code. -/
def readsBack (code digits : Nat) (exponent : Int) : Bool :=
  (Binary.ofDecimal false digits exponent : Binary F).magnitude = code

/-- The numeral on the grid of multiples of ten to the power `exponent` that reads back as the
given code and is nearest to it. -/
def onGrid (tie : Tie) (code : Nat) (exponent : Int) : Option Decimal :=
  let a := F.units code * 10 ^ (-exponent).toNat
  let b := 2 ^ F.scale * 10 ^ exponent.toNat
  let below := a / b
  match readsBack F code below exponent, readsBack F code (below + 1) exponent with
  | false, false => none
  | true, false => some ⟨below, exponent⟩
  | false, true => some ⟨below + 1, exponent⟩
  | true, true =>
    some ⟨if tie.takesAbove below (2 * (a % b)) b then below + 1 else below, exponent⟩

/-- Digits that always suffice for formats of up to 64 bits. -/
def sufficientDigits : Nat := 17

/-- The exact value of a code, which has a finite decimal numeral. -/
def exact (code : Nat) : Decimal := ⟨F.units code * 5 ^ F.scale, -(F.scale : Int)⟩

/-- The shortest numeral that reads back as the given code of a finite positive number. -/
def shortest (tie : Tie) (code : Nat) : Decimal :=
  let top := leadingExponent (F.units code) (2 ^ F.scale)
  let found := (List.range sufficientDigits).findSome? fun (n : Nat) => onGrid F tie code (top - n)
  let d := found.getD (exact F code)
  strip (Binary.decimalLength d.digits) d

end Decimal

end RowIndex
