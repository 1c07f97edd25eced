import RowIndex.Powers

/-!
# Binary/Format — binary floating-point numbers as exact natural numbers

A number of a binary interchange format is a sign and a **magnitude code**: its bit pattern without
the sign bit.  Counted in the format's least positive number, the **unit**, the value of every
finite code is a natural number, `units`, and greater codes have greater values.  So all arithmetic
on these numbers is arithmetic on `Nat`, without limits or error terms.
-/

namespace RowIndex

/-- The widths of a binary interchange format. -/
structure BinaryFormat where
  /-- Bits after the binary point. -/
  fractionBits : Nat
  /-- Bits of the exponent. -/
  exponentBits : Nat
  deriving DecidableEq, Repr

namespace BinaryFormat

/-- The 32-bit format. -/
def single : BinaryFormat := ⟨23, 8⟩

/-- The 64-bit format. -/
def double : BinaryFormat := ⟨52, 11⟩

variable (F : BinaryFormat)

/-- The number of magnitude codes. -/
def bound : Nat := 2 ^ (F.exponentBits + F.fractionBits)

/-- The code of infinity: exponent bits all set, fraction bits all clear.  Greater codes are no
numbers. -/
def infinity : Nat := (2 ^ F.exponentBits - 1) * 2 ^ F.fractionBits

/-- The unit is the power of two with exponent `-scale`. -/
def scale : Nat := 2 ^ (F.exponentBits - 1) + F.fractionBits - 2

theorem bound_pos : 0 < F.bound := Nat.two_pow_pos _

theorem infinity_lt_bound : F.infinity < F.bound := by
  rw [infinity, bound, Nat.pow_add]
  exact Nat.mul_lt_mul_of_pos_right (Nat.sub_lt (Nat.two_pow_pos _) Nat.one_pos)
    (Nat.two_pow_pos _)

/-- The value of a finite code, in units: the fraction as it stands under the least exponent, and
with the hidden bit in front of it under every other one. -/
def units (code : Nat) : Nat :=
  let exponent := code / 2 ^ F.fractionBits
  let fraction := code % 2 ^ F.fractionBits
  if exponent = 0 then fraction else (2 ^ F.fractionBits + fraction) * 2 ^ (exponent - 1)

end BinaryFormat

/-- A number of the format `F`: every bit pattern is one, and patterns are told apart even where
they stand for equal numbers (zeros) or for none. -/
structure Binary (F : BinaryFormat) where
  /-- The sign bit. -/
  negative : Bool
  /-- The bits below the sign. -/
  magnitude : Nat
  magnitude_lt : magnitude < F.bound
  deriving DecidableEq

/-- A 32-bit floating-point number. -/
abbrev Single := Binary .single

/-- A 64-bit floating-point number. -/
abbrev Double := Binary .double

namespace Binary

variable {F : BinaryFormat}

/-- The number with the given sign and the low bits of `code` as its magnitude. -/
def ofMagnitude (negative : Bool) (code : Nat) : Binary F :=
  ⟨negative, code % F.bound, Nat.mod_lt _ F.bound_pos⟩

/-- The number with the given bit pattern. -/
def ofBits (bits : Nat) : Binary F :=
  ofMagnitude (bits / F.bound % 2 = 1) bits

/-- The bit pattern: the sign bit above the magnitude. -/
def toBits (x : Binary F) : Nat :=
  (if x.negative then F.bound else 0) + x.magnitude

/-- The number with the least code at or above infinity's replaced by infinity. -/
def saturated (negative : Bool) (code : Nat) : Binary F :=
  ⟨negative, min code F.infinity, Nat.lt_of_le_of_lt (Nat.min_le_right _ _) F.infinity_lt_bound⟩

/-- Zero of the given sign. -/
def zero (negative : Bool) : Binary F := saturated negative 0

/-- Infinity of the given sign. -/
def infinite (negative : Bool) : Binary F := saturated negative F.infinity

/-- Whether the pattern stands for no number. -/
def isNaN (x : Binary F) : Bool := F.infinity < x.magnitude

/-- Whether the number is one of the two infinities. -/
def isInfinite (x : Binary F) : Bool := x.magnitude == F.infinity

/-- Whether the number is a finite one. -/
def isFinite (x : Binary F) : Bool := x.magnitude < F.infinity

/-- Whether the number is one of the two zeros. -/
def isZero (x : Binary F) : Bool := x.magnitude == 0

/-- The pattern that stands for no number, with a sign and the low fraction bits of `payload`. -/
def nan (negative : Bool) (payload : Nat) : Binary F :=
  ofMagnitude negative (F.infinity + (2 ^ (F.fractionBits - 1) ||| payload % 2 ^ F.fractionBits))

/-- The absolute value of a finite number, in units. -/
def units (x : Binary F) : Nat := F.units x.magnitude

/-- A finite number in units. -/
def signedUnits (x : Binary F) : Int := if x.negative then -(x.units : Int) else x.units

/-- The same magnitude with the opposite sign. -/
def neg (x : Binary F) : Binary F := { x with negative := !x.negative }

/-- Place of a pattern in the total order: negative patterns first, the largest magnitude at the
bottom, so that `-0` is below `0` and patterns that are no numbers lie outside the infinities. -/
def rank (x : Binary F) : Int :=
  if x.negative then -(x.magnitude : Int) - 1 else x.magnitude

/-- Different patterns have different places. -/
theorem rank_inj {x y : Binary F} (h : x.rank = y.rank) : x = y := by
  obtain ⟨s, m, hm⟩ := x
  obtain ⟨t, n, hn⟩ := y
  cases s <;> cases t <;> simp only [rank, Bool.false_eq_true, ↓reduceIte] at h <;>
    first
      | omega
      | (obtain rfl : m = n := by omega
         rfl)

/-- The total order of bit patterns. -/
instance : Ord (Binary F) where
  compare x y := compare x.rank y.rank

end Binary

end RowIndex
