import Mathlib.Tactic.Ring
import RowIndex.Binary.Rounding

/-!
# Proofs/Binary/Integers — integers that fit a significand are exact

A positive integer of at most as many bits as a significand has is a significand times a power of
two (`BinaryFormat.exists_significand`), and of such a product nothing is rounded away
(`BinaryFormat.nearest_mul`).  So the number nearest to an integer of that size is that integer
(`Binary.signedUnits_ofInt`).
-/

namespace RowIndex

/-- A multiple is its own nearest quotient. -/
theorem divHalfEven_mul (m : Nat) {b : Nat} (hb : 0 < b) : divHalfEven (m * b) b = m := by
  simp [divHalfEven, Nat.mul_div_cancel m hb, hb]

namespace BinaryFormat

variable {F : BinaryFormat}

section Significand

variable {significand shift : Nat} (hlow : 2 ^ F.fractionBits ≤ significand)
  (hhigh : significand < 2 ^ (F.fractionBits + 1))

include hlow hhigh

/-- The value of a code that adds a shift to a significand with its hidden bit. -/
theorem units_add :
    F.units (shift * 2 ^ F.fractionBits + significand) = significand * 2 ^ shift := by
  obtain ⟨fraction, rfl⟩ := Nat.exists_eq_add_of_le hlow
  have hpos : 0 < 2 ^ F.fractionBits := Nat.two_pow_pos _
  have hlt : fraction < 2 ^ F.fractionBits := by
    rw [Nat.pow_succ] at hhigh
    omega
  have hcode : shift * 2 ^ F.fractionBits + (2 ^ F.fractionBits + fraction) =
      2 ^ F.fractionBits * (shift + 1) + fraction := by
    ring
  simp only [units, hcode]
  rw [Nat.mul_add_div hpos, Nat.div_eq_of_lt hlt, Nat.mul_add_mod, Nat.mod_eq_of_lt hlt,
    Nat.add_zero, if_neg (Nat.succ_ne_zero shift), Nat.add_sub_cancel]

/-- **The code nearest to a shifted significand** adds the shift to it. -/
theorem nearest_mul :
    F.nearest (significand * 2 ^ shift) 1 = shift * 2 ^ F.fractionBits + significand := by
  have hne : significand ≠ 0 :=
    Nat.ne_of_gt (Nat.lt_of_lt_of_le (Nat.two_pow_pos _) hlow)
  have hlog : Nat.log2 (significand * 2 ^ shift) = F.fractionBits + shift := by
    rw [Nat.log2_eq_iff (Nat.mul_ne_zero hne (Nat.ne_of_gt (Nat.two_pow_pos _)))]
    constructor
    · rw [Nat.pow_add]
      exact Nat.mul_le_mul_right _ hlow
    · rw [Nat.add_right_comm, Nat.pow_add]
      exact Nat.mul_lt_mul_of_pos_right hhigh (Nat.two_pow_pos _)
  simp only [nearest, Nat.div_one, hlog, Nat.add_sub_cancel_left, Nat.one_mul]
  rw [divHalfEven_mul significand (Nat.two_pow_pos _)]

end Significand

/-- An integer that fits a significand is a shifted significand, counted in units. -/
theorem exists_significand {n : Nat} (hpos : 0 < n) (hn : n ≤ 2 ^ (F.fractionBits + 1))
    (hscale : F.fractionBits ≤ F.scale) :
    ∃ significand shift, n * 2 ^ F.scale = significand * 2 ^ shift ∧ shift ≤ F.scale + 1 ∧
      2 ^ F.fractionBits ≤ significand ∧ significand < 2 ^ (F.fractionBits + 1) := by
  rcases Nat.lt_or_eq_of_le hn with hlt | rfl
  · have hlog : Nat.log2 n ≤ F.fractionBits :=
      Nat.le_of_lt_succ ((Nat.log2_lt (Nat.ne_of_gt hpos)).mpr hlt)
    obtain ⟨hlow, hhigh⟩ := (Nat.log2_eq_iff (Nat.ne_of_gt hpos)).mp rfl
    refine ⟨n * 2 ^ (F.fractionBits - n.log2), F.scale - F.fractionBits + n.log2, ?_, by omega,
      ?_, ?_⟩
    · rw [Nat.mul_assoc, ← Nat.pow_add]
      congr 2
      omega
    · calc 2 ^ F.fractionBits = 2 ^ n.log2 * 2 ^ (F.fractionBits - n.log2) := by
            rw [← Nat.pow_add, Nat.add_sub_cancel' hlog]
        _ ≤ n * 2 ^ (F.fractionBits - n.log2) := Nat.mul_le_mul_right _ hlow
    · calc n * 2 ^ (F.fractionBits - n.log2)
        _ < 2 ^ (n.log2 + 1) * 2 ^ (F.fractionBits - n.log2) :=
          Nat.mul_lt_mul_of_pos_right hhigh (Nat.two_pow_pos _)
        _ = 2 ^ (F.fractionBits + 1) := by
          rw [← Nat.pow_add]
          congr 1
          omega
  · exact ⟨2 ^ F.fractionBits, F.scale + 1, by ring, Nat.le_refl _, Nat.le_refl _,
      Nat.pow_lt_pow_right Nat.one_lt_two (Nat.lt_succ_self _)⟩

end BinaryFormat

namespace Binary

variable {F : BinaryFormat} (hroom : F.fractionBits + 2 ≤ 2 ^ (F.exponentBits - 1))

theorem magnitude_saturated {negative : Bool} {code : Nat} (h : code ≤ F.infinity) :
    (saturated negative code : Binary F).magnitude = code := Nat.min_eq_left h

include hroom

/-- The magnitude of an integer that fits a significand is exact. -/
theorem units_ofRatio {n : Nat} (negative : Bool) (hn : n ≤ 2 ^ (F.fractionBits + 1)) :
    (ofRatio negative n 1 : Binary F).units = n * 2 ^ F.scale := by
  have hscale : F.scale = 2 ^ (F.exponentBits - 1) + F.fractionBits - 2 := rfl
  rcases Nat.eq_zero_or_pos n with rfl | hpos
  · have hzero : F.nearest (0 * 2 ^ F.scale) 1 = 0 := by simp [BinaryFormat.nearest, divHalfEven]
    rw [units, ofRatio, hzero, magnitude_saturated (Nat.zero_le _), Nat.zero_mul]
    simp [BinaryFormat.units]
  · obtain ⟨significand, shift, heq, hshift, hlow, hhigh⟩ :=
      BinaryFormat.exists_significand hpos hn (by omega)
    have hexponent : 0 < F.exponentBits := by
      rcases Nat.eq_zero_or_pos F.exponentBits with h | h
      · rw [h] at hroom
        omega
      · exact h
    have hdouble : 2 ^ F.exponentBits = 2 ^ (F.exponentBits - 1) * 2 := by
      rw [← Nat.pow_succ, Nat.succ_eq_add_one, Nat.sub_add_cancel hexponent]
    have hcode : shift * 2 ^ F.fractionBits + significand < F.infinity :=
      calc shift * 2 ^ F.fractionBits + significand
        _ < (shift + 2) * 2 ^ F.fractionBits := by
          rw [Nat.add_mul, ← Nat.pow_succ']
          omega
        _ ≤ F.infinity := Nat.mul_le_mul_right _ (by omega)
    rw [units, ofRatio, heq, BinaryFormat.nearest_mul hlow hhigh,
      magnitude_saturated (Nat.le_of_lt hcode), BinaryFormat.units_add hlow hhigh]

/-- **An integer that fits a significand is exact.** -/
theorem signedUnits_ofInt {value : Int} (h : value.natAbs ≤ 2 ^ (F.fractionBits + 1)) :
    (ofInt value : Binary F).signedUnits = value * 2 ^ F.scale := by
  have hunits := units_ofRatio hroom (decide (value < 0)) h
  have hnegative : (ofInt value : Binary F).negative = decide (value < 0) := rfl
  rw [signedUnits, hnegative, ofInt, hunits, Nat.cast_mul, Nat.cast_pow, Nat.cast_two]
  by_cases hvalue : value < 0
  · rw [if_pos (decide_eq_true hvalue), Int.ofNat_natAbs_of_nonpos (Int.le_of_lt hvalue),
      Int.neg_mul, Int.neg_neg]
  · rw [if_neg (by simpa using hvalue), Int.natAbs_of_nonneg (Int.not_lt.mp hvalue)]

end Binary

end RowIndex
