import RowIndex.Binary.Arithmetic
import RowIndex.Decimal.Shortest
import RowIndex.Json.Basic

/-!
# Json/Number — the numbers that JSON numbers stand for

An integer has neither point nor exponent, and fits into a word; minus zero is none.  Every other
number is read as floating-point: as many leading digits as fit into a 64-bit word, times a power of
ten, each of the two rounded and their product or quotient rounded again.  Numbers beyond the
largest one are refused.

Written, a floating-point number has its shortest digits, and always a point or an exponent.
-/

namespace RowIndex

namespace Json.Number

/-- Whether there is neither point nor exponent. -/
def isPlain (n : Number) : Bool := n.fraction.isEmpty && n.exponent.isNone

/-- The integer that the digits spell. -/
def signedWhole (n : Number) : Int := if n.negative then -(n.whole : Int) else n.whole

/-- The integer of a number of any size without point and exponent. -/
def plain? (n : Number) : Option Int := if n.isPlain then some n.signedWhole else none

/-- The integer of a number that is one and fits into a word of 64 bits with or without sign. -/
def integer? (n : Number) : Option Int :=
  if n.isPlain && (if n.negative then n.whole ≠ 0 && n.whole ≤ 2 ^ 63 else n.whole < 2 ^ 64) then
    some n.signedWhole
  else none

/-! ## Floating-point numbers -/

/-- The digits that are taken into account, as a word, and how many powers of ten it lacks. -/
structure Significand where
  /-- The digits as a word. -/
  word : Nat := 0
  /-- The power of ten of the last digit. -/
  exponent : Int := 0

/-- Take digits into a word as long as they fit; `step` is added to the exponent by each digit that
is taken, and `skip` by each that no longer is. -/
def Significand.takeDigits (step skip : Int) : Significand → List Nat → Significand
  | s, [] => s
  | s, d :: rest =>
    if s.word * 10 + d < 2 ^ 64 then
      takeDigits step skip ⟨s.word * 10 + d, s.exponent + step⟩ rest
    else ⟨s.word, s.exponent + skip * (d :: rest).length⟩

/-- The leading digits of a number: those of the whole part keep their place, and further ones of it
are replaced by zeros; digits of the fraction are taken as long as they fit. -/
def significand (n : Number) : Significand :=
  let whole := Significand.takeDigits 0 1 {} ((Nat.toDigits 10 n.whole).map (·.toNat - 48))
  let all := whole.takeDigits (-1) 0 (n.fraction.map Fin.val)
  { all with exponent := all.exponent + n.exponent.getD 0 }

/-- The greatest power of ten that is a number of 64 bits. -/
def maxPower : Nat := 308

/-- A power of ten, rounded. -/
def tenTo (n : Nat) : Double := Binary.ofInt (10 ^ n : Nat)

/-- Divide by a power of ten, by the greatest one first as often as needed. -/
def divideByPower (x : Double) (n : Nat) : Double :=
  if n ≤ maxPower then x.div (tenTo n)
  else if x.isZero then x
  else divideByPower (x.div (tenTo maxPower)) (n - maxPower)
termination_by n
decreasing_by simp only [maxPower] at *; omega

/-- A number without its sign as a floating-point number; none if it is too large. -/
def magnitude? (n : Number) : Option Double :=
  let s := n.significand
  let x : Double := Binary.ofInt s.word
  if s.exponent < 0 then some (divideByPower x (-s.exponent).toNat)
  else if s.exponent ≤ maxPower then
    let y := x * tenTo s.exponent.toNat
    if y.isInfinite then none else some y
  else if x.isZero then some x
  else none

/-- A number as one of 64 bits; none if it is too large. -/
def double? (n : Number) : Option Double :=
  match n.integer? with
  | some i => some (Binary.ofInt i)
  | none => n.magnitude?.map fun x => if n.negative then x.neg else x

/-- A number as one of 32 bits: integers are rounded once, others by way of 64 bits. -/
def single? (n : Number) : Option Single :=
  match n.integer? with
  | some i => some (Binary.ofInt i)
  | none => n.double?.map Binary.convert

/-! ## Writing -/

/-- The last `places` digits of a number. -/
def lastDigits (places n : Nat) : List (Fin 10) :=
  (List.range places).map fun i => Fin.ofNat 10 (n / 10 ^ (places - 1 - i))

/-- A decimal number with a point and no exponent. -/
def positional (negative : Bool) (d : Decimal) : Number :=
  if 0 ≤ d.exponent then
    { negative, whole := d.digits * 10 ^ d.exponent.toNat, fraction := [0] }
  else
    let places := (-d.exponent).toNat
    { negative, whole := d.digits / 10 ^ places, fraction := lastDigits places d.digits }

/-- A decimal number with one digit before the point and an exponent. -/
def scientific (negative : Bool) (d : Decimal) : Number :=
  let places := Binary.decimalLength d.digits - 1
  { negative, whole := d.digits / 10 ^ places, fraction := lastDigits places d.digits,
    exponent := some (d.exponent + places) }

/-- The decimal exponents of the first digit, least and greatest, with which numbers of a format are
written without exponent. -/
def positionalRange (F : BinaryFormat) : Int × Int :=
  if F = .single then (-6, 12) else (-5, 15)

/-- A finite number by its shortest digits. -/
def ofBinary {F : BinaryFormat} (x : Binary F) : Number :=
  if x.isZero then { negative := x.negative, whole := 0, fraction := [0] }
  else
    let d := Decimal.shortest F .even x.magnitude
    let first := d.exponent + (Binary.decimalLength d.digits - 1 : Nat)
    let (low, high) := positionalRange F
    if low ≤ first ∧ first ≤ high then positional x.negative d else scientific x.negative d

end Json.Number

/-- A number as JSON; there is no JSON number for infinities and patterns that are no numbers. -/
def Binary.toJson {F : BinaryFormat} (x : Binary F) : Json :=
  if x.isFinite then .number (.ofBinary x) else .null

end RowIndex
