import RowIndex.Binary.Arithmetic
import RowIndex.Proofs.Binary.Integers

/-!
# Proofs/Binary/Codes — a code is the one nearest to its own value

Greater codes have greater values (`BinaryFormat.units_strictMono`), and rounding the value of a
code gives the code again (`BinaryFormat.nearest_units`).  How a quotient is written does not matter
to rounding (`BinaryFormat.nearest_mul_mul`), so a finite number is recovered from its value in
whatever units it is given (`Binary.ofRatio_units`).  Numbers of different values stand in the order
of their values (`Binary.rank_lt_of_signedUnits_lt`), as do the integers that fit a significand
(`Binary.rank_ofInt_lt_iff`), each of which is cut to itself (`Binary.toIntBetween_ofInt`).
-/

namespace RowIndex

/-- A common factor is of no account. -/
theorem divHalfEven_mul_mul {c : Nat} (hc : 0 < c) (a b : Nat) :
    divHalfEven (c * a) (c * b) = divHalfEven a b := by
  have hbelow (r : Nat) : 2 * (c * r) < c * b ↔ 2 * r < b := by
    rw [Nat.mul_left_comm]
    exact Nat.mul_lt_mul_left hc
  have habove (r : Nat) : c * b < 2 * (c * r) ↔ b < 2 * r := by
    rw [Nat.mul_left_comm]
    exact Nat.mul_lt_mul_left hc
  simp only [divHalfEven, Nat.mul_div_mul_left a b hc, Nat.mul_mod_mul_left, hbelow, habove]

namespace BinaryFormat

variable {F : BinaryFormat}

/-- **Rounding looks at the quotient only.** -/
theorem nearest_mul_mul {c : Nat} (hc : 0 < c) (a b : Nat) :
    F.nearest (c * a) (c * b) = F.nearest a b := by
  simp only [nearest, Nat.mul_div_mul_left a b hc]
  rw [Nat.mul_assoc, divHalfEven_mul_mul hc]

/-- The value of a code that is given by its exponent and its fraction. -/
theorem units_mul_add {exponent fraction : Nat} (h : fraction < 2 ^ F.fractionBits) :
    F.units (2 ^ F.fractionBits * exponent + fraction) =
      if exponent = 0 then fraction
      else (2 ^ F.fractionBits + fraction) * 2 ^ (exponent - 1) := by
  simp only [units]
  rw [Nat.mul_add_div (Nat.two_pow_pos _), Nat.div_eq_of_lt h, Nat.mul_add_mod,
    Nat.mod_eq_of_lt h, Nat.add_zero]

/-- A code is an exponent and a fraction. -/
theorem exists_code_eq (F : BinaryFormat) (code : Nat) : ∃ exponent fraction,
    fraction < 2 ^ F.fractionBits ∧ code = 2 ^ F.fractionBits * exponent + fraction :=
  ⟨_, _, Nat.mod_lt code (Nat.two_pow_pos _), (Nat.div_add_mod code _).symm⟩

/-- **A code is the one nearest to its value.** -/
theorem nearest_units (code : Nat) : F.nearest (F.units code) 1 = code := by
  obtain ⟨exponent, fraction, hfraction, rfl⟩ := F.exists_code_eq code
  rw [units_mul_add hfraction]
  cases exponent with
  | zero =>
    -- Under the least exponent nothing is rounded, for there is no bit to spare.
    have hshift : Nat.log2 fraction - F.fractionBits = 0 := by
      rcases Nat.eq_zero_or_pos fraction with rfl | hpos
      · simp
      · have := (Nat.log2_lt (Nat.ne_of_gt hpos)).mpr hfraction
        omega
    simpa [nearest, hshift] using divHalfEven_mul fraction Nat.one_pos
  | succ exponent =>
    have hhigh : 2 ^ F.fractionBits + fraction < 2 ^ (F.fractionBits + 1) := by
      rw [Nat.pow_succ]
      omega
    rw [if_neg (Nat.succ_ne_zero _), Nat.add_sub_cancel, nearest_mul (Nat.le_add_right _ _) hhigh]
    ring

/-- **Greater codes have greater values.** -/
theorem units_strictMono (F : BinaryFormat) : StrictMono F.units := by
  refine strictMono_nat_of_lt_succ fun code => ?_
  have hpos : 0 < 2 ^ F.fractionBits := Nat.two_pow_pos _
  obtain ⟨exponent, fraction, hfraction, rfl⟩ := F.exists_code_eq code
  rw [units_mul_add hfraction]
  rcases Nat.lt_or_eq_of_le hfraction with hlt | hcarry
  · -- The next code differs in its fraction.
    rw [Nat.add_assoc, units_mul_add hlt]
    split
    · exact Nat.lt_succ_self _
    · exact Nat.mul_lt_mul_of_pos_right (Nat.lt_succ_self _) (Nat.two_pow_pos _)
  · -- The next code has no fraction, under the next exponent.
    have hnext : 2 ^ F.fractionBits * exponent + fraction + 1 =
        2 ^ F.fractionBits * (exponent + 1) + 0 := by
      rw [Nat.mul_succ]
      omega
    rw [hnext, units_mul_add hpos, if_neg (Nat.succ_ne_zero _), Nat.add_zero, Nat.add_sub_cancel]
    split
    · rename_i hzero
      rw [hzero, Nat.pow_zero, Nat.mul_one]
      exact hfraction
    · rename_i hne
      obtain ⟨below, rfl⟩ := Nat.exists_eq_succ_of_ne_zero hne
      rw [Nat.succ_eq_add_one, Nat.add_sub_cancel, Nat.pow_succ, ← Nat.mul_assoc,
        Nat.mul_right_comm]
      exact Nat.mul_lt_mul_of_pos_right (by omega) (Nat.two_pow_pos _)

end BinaryFormat

namespace Binary

variable {F : BinaryFormat}

theorem ext_iff {x y : Binary F} :
    x = y ↔ x.negative = y.negative ∧ x.magnitude = y.magnitude := by
  refine ⟨fun h => h ▸ ⟨rfl, rfl⟩, fun ⟨hs, hm⟩ => ?_⟩
  cases x
  cases y
  cases hs
  cases hm
  rfl

theorem ofRatio_mul_mul {c : Nat} (hc : 0 < c) (negative : Bool) (a b : Nat) :
    (ofRatio negative (c * a) (c * b) : Binary F) = ofRatio negative a b := by
  rw [ofRatio, Nat.mul_assoc, BinaryFormat.nearest_mul_mul hc]
  rfl

/-! ## Values -/

/-- **A finite number is recovered from its value.** -/
theorem ofRatio_units {x : Binary F} (h : x.isFinite = true) :
    ofRatio x.negative x.units (2 ^ F.scale) = x := by
  have hnearest := BinaryFormat.nearest_mul_mul (F := F) (Nat.two_pow_pos F.scale) x.units 1
  rw [Nat.mul_one, Nat.mul_comm, units, BinaryFormat.nearest_units] at hnearest
  have hfinite : x.magnitude < F.infinity := of_decide_eq_true h
  rw [ofRatio, units, hnearest, ext_iff]
  exact ⟨rfl, magnitude_saturated (Nat.le_of_lt hfinite)⟩

/-- **A number of less value stands before one of greater value.** -/
theorem rank_lt_of_signedUnits_lt {x y : Binary F} (h : x.signedUnits < y.signedUnits) :
    x.rank < y.rank := by
  have hmono : x.units < y.units ↔ x.magnitude < y.magnitude := F.units_strictMono.lt_iff_lt
  have hmono' : y.units < x.units ↔ y.magnitude < x.magnitude := F.units_strictMono.lt_iff_lt
  rw [signedUnits, signedUnits] at h
  rw [rank, rank]
  by_cases hx : x.negative = true <;> by_cases hy : y.negative = true
  · rw [if_pos hx, if_pos hy] at h ⊢
    omega
  · rw [if_pos hx, if_neg hy] at h ⊢
    omega
  · rw [if_neg hx, if_pos hy] at h
    omega
  · rw [if_neg hx, if_neg hy] at h ⊢
    omega

/-! ## Integers -/

section Integers

variable (hroom : F.fractionBits + 2 ≤ 2 ^ (F.exponentBits - 1)) {value : Int}
  (h : value.natAbs ≤ 2 ^ (F.fractionBits + 1))

include hroom h

/-- An integer that fits a significand is below infinity. -/
theorem isFinite_ofInt : (ofInt value : Binary F).isFinite = true := by
  have hscale : F.scale = 2 ^ (F.exponentBits - 1) + F.fractionBits - 2 := rfl
  have hexponent : F.exponentBits ≠ 0 := by
    intro hzero
    rw [hzero] at hroom
    omega
  have hdouble : 2 ^ F.exponentBits = 2 * 2 ^ (F.exponentBits - 1) := by
    rw [← Nat.pow_succ', Nat.succ_eq_add_one, Nat.sub_add_cancel (Nat.pos_of_ne_zero hexponent)]
  have hinfinity : F.units F.infinity = 2 ^ F.fractionBits * 2 ^ (2 ^ F.exponentBits - 2) := by
    rw [BinaryFormat.infinity, Nat.mul_comm, ← Nat.add_zero (2 ^ F.fractionBits * _),
      F.units_mul_add (Nat.two_pow_pos _), if_neg (by omega)]
    rfl
  have hlt : (ofInt value : Binary F).units < F.units F.infinity :=
    calc (ofInt value : Binary F).units = value.natAbs * 2 ^ F.scale := units_ofRatio hroom _ h
      _ ≤ 2 ^ (F.fractionBits + 1) * 2 ^ F.scale := Nat.mul_le_mul_right _ h
      _ = 2 ^ F.fractionBits * 2 ^ (F.scale + 1) := by ring
      _ < 2 ^ F.fractionBits * 2 ^ (2 ^ F.exponentBits - 2) :=
        Nat.mul_lt_mul_of_pos_left (Nat.pow_lt_pow_right (by decide) (by omega))
          (Nat.two_pow_pos _)
      _ = F.units F.infinity := hinfinity.symm
  exact decide_eq_true (F.units_strictMono.lt_iff_lt.mp hlt)

/-- **An integer that fits a significand is cut to itself.** -/
theorem toIntBetween_ofInt {low high : Int} (hlow : low ≤ value) (hhigh : value ≤ high) :
    (ofInt value : Binary F).toIntBetween low high = value := by
  have hfinite : (ofInt value : Binary F).magnitude < F.infinity :=
    of_decide_eq_true (isFinite_ofInt hroom h)
  have hnumber : (ofInt value : Binary F).isNaN = false :=
    decide_eq_false (Nat.not_lt_of_gt hfinite)
  have hbounded : (ofInt value : Binary F).isInfinite = false :=
    beq_false_of_ne (Nat.ne_of_lt hfinite)
  have hwhole : (ofInt value : Binary F).units / 2 ^ F.scale = value.natAbs := by
    have hunits := units_ofRatio hroom (decide (value < 0)) h
    rw [ofInt, hunits, Nat.mul_div_cancel _ (Nat.two_pow_pos _)]
  have hnegative : (ofInt value : Binary F).negative = decide (value < 0) := rfl
  simp only [toIntBetween, hnumber, hbounded, hwhole, hnegative, decide_eq_true_eq,
    Bool.false_eq_true, if_false]
  split <;> omega

/-- **Integers that fit a significand keep their order.** -/
theorem rank_ofInt_lt_iff {other : Int} (hother : other.natAbs ≤ 2 ^ (F.fractionBits + 1)) :
    (ofInt value : Binary F).rank < (ofInt other : Binary F).rank ↔ value < other := by
  have hlt {a b : Int} (ha : a.natAbs ≤ 2 ^ (F.fractionBits + 1))
      (hb : b.natAbs ≤ 2 ^ (F.fractionBits + 1)) (hab : a < b) :
      (ofInt a : Binary F).rank < (ofInt b : Binary F).rank := by
    refine rank_lt_of_signedUnits_lt ?_
    rw [signedUnits_ofInt hroom ha, signedUnits_ofInt hroom hb]
    exact Int.mul_lt_mul_of_pos_right hab (Int.pow_pos (by decide))
  refine ⟨fun hrank => Int.not_le.mp fun hle => ?_, hlt h hother⟩
  rcases Int.lt_or_eq_of_le hle with hgt | rfl
  · exact Int.lt_asymm hrank (hlt hother h hgt)
  · exact Int.lt_irrefl _ hrank

end Integers

end Binary

end RowIndex
