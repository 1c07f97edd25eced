import RowIndex.Decimal.Positional
import RowIndex.Proofs.Decimal.Numerals

/-!
# Proofs/Decimal/ShortestText — a number is read back from its text

    number ──shortest──▸ digits · 10ᵉ ──positional──▸ text
       ▴                                               │
       └──nearest── digits' · 10⁻ᵖˡᵃᶜᵉˢ ◂──read────────┘

Every numeral that the search on decimal grids tries is read back before it is taken
(`Decimal.readsBack_onGrid`), and where none is found the exact value is written, which every format
can read (`Decimal.readsBack_exact`).  Zeros are moved between digits and exponent, and a point is
put in, without a change of value, so the text of every number is read as that number, down to the
sign of zero (`Binary.ofText?_toText`).
-/

namespace RowIndex

namespace Decimal

variable {F : BinaryFormat}

/-- Two numerals of one value: the same number is nearest to both, in every format. -/
def SameValue (d e : Decimal) : Prop :=
  ∀ (F : BinaryFormat) (negative : Bool),
    (Binary.ofDecimal negative d.digits d.exponent : Binary F) =
      Binary.ofDecimal negative e.digits e.exponent

/-! ## Digits that read back -/

theorem sameValue_strip (fuel : Nat) (d : Decimal) : (strip fuel d).SameValue d := by
  induction fuel generalizing d with
  | zero => exact fun _ _ => rfl
  | succ fuel ih =>
    rw [strip]
    split
    · rename_i h
      intro F negative
      have hdigits : d.digits = 10 * (d.digits / 10) := by omega
      rw [ih, ← Binary.ofDecimal_mul_ten, ← hdigits]
    · exact fun _ _ => rfl

/-- **What is found on a grid reads back.** -/
theorem readsBack_onGrid {tie : Tie} {code : Nat} {exponent : Int} {d : Decimal}
    (h : onGrid F tie code exponent = some d) : readsBack F code d.digits d.exponent = true := by
  simp only [onGrid] at h
  split at h
  · contradiction
  · rename_i hbelow _
    cases h
    exact hbelow
  · rename_i _ habove
    cases h
    exact habove
  · rename_i hbelow habove
    cases h
    split <;> assumption

/-- A finite number is below a power of two. -/
theorem units_lt (hbits : 2 ≤ F.fractionBits) {code : Nat} (h : code < F.infinity) :
    F.units code < 2 ^ (2 * F.scale) := by
  have hscale : F.scale = 2 ^ (F.exponentBits - 1) + F.fractionBits - 2 := rfl
  obtain ⟨exponent, fraction, hfraction, rfl⟩ := F.exists_code_eq code
  rw [BinaryFormat.units_mul_add hfraction]
  have hexponent : exponent < 2 ^ F.exponentBits - 1 := by
    rw [BinaryFormat.infinity, Nat.mul_comm _ (2 ^ F.fractionBits)] at h
    exact Nat.lt_of_mul_lt_mul_left (Nat.lt_of_le_of_lt (Nat.le_add_right _ _) h)
  have hroom : F.fractionBits + exponent ≤ 2 * F.scale := by
    rcases Nat.eq_zero_or_pos F.exponentBits with hzero | hpos
    · simp [hzero] at hexponent
    · have hdouble : 2 ^ F.exponentBits = 2 * 2 ^ (F.exponentBits - 1) := by
        rw [← Nat.pow_succ', Nat.succ_eq_add_one, Nat.sub_add_cancel hpos]
      omega
  refine Nat.lt_of_lt_of_le ?_ (Nat.pow_le_pow_right (by decide) hroom)
  split
  · rename_i hzero
    rwa [hzero]
  · calc (2 ^ F.fractionBits + fraction) * 2 ^ (exponent - 1)
      _ < 2 ^ (F.fractionBits + 1) * 2 ^ (exponent - 1) :=
        Nat.mul_lt_mul_of_pos_right (by rw [Nat.pow_succ]; omega) (Nat.two_pow_pos _)
      _ = 2 ^ (F.fractionBits + exponent) := by
        rw [← Nat.pow_add]
        congr 1
        omega

/-- The exact value of a finite number has its first digit within the reach of its format. -/
theorem decimalLength_exact (hbits : 2 ≤ F.fractionBits) {code : Nat} (hpos : 0 < code)
    (h : code < F.infinity) :
    let length := Binary.decimalLength (exact F code).digits
    F.scale ≤ length + Binary.decimalReach F ∧ length ≤ F.scale + Binary.decimalReach F := by
  intro length
  have hreach := Binary.two_pow_scale_le (F := F)
  have hten : 10 ^ F.scale = 5 ^ F.scale * 2 ^ F.scale := by rw [← Nat.mul_pow]
  have hunits : 0 < F.units code :=
    Nat.lt_of_le_of_lt (Nat.zero_le _) (BinaryFormat.units_strictMono F hpos)
  have hlength {k : Nat} (hk : 0 < k) : length ≤ k ↔ F.units code * 5 ^ F.scale < 10 ^ k :=
    Nat.length_toDigits_le_iff (by decide) hk
  constructor
  · by_contra hshort
    -- Too few digits would leave less than the unit.
    have hless := (hlength (k := F.scale - Binary.decimalReach F) (by omega)).mp (by omega)
    refine absurd (Nat.mul_lt_mul_of_pos_right hless (Nat.two_pow_pos F.scale)) (Nat.not_lt.mpr ?_)
    calc 10 ^ (F.scale - Binary.decimalReach F) * 2 ^ F.scale
      _ ≤ 10 ^ (F.scale - Binary.decimalReach F) * 10 ^ Binary.decimalReach F :=
        Nat.mul_le_mul_left _ hreach
      _ = 5 ^ F.scale * 2 ^ F.scale := by
        rw [← Nat.pow_add, ← hten]
        congr 1
        omega
      _ ≤ F.units code * 5 ^ F.scale * 2 ^ F.scale :=
        Nat.mul_le_mul_right _ (Nat.le_mul_of_pos_left _ hunits)
  · refine (hlength (Nat.add_pos_right _ (Nat.succ_pos _))).mpr ?_
    calc F.units code * 5 ^ F.scale
      _ < 2 ^ (2 * F.scale) * 5 ^ F.scale :=
        Nat.mul_lt_mul_of_pos_right (units_lt hbits h) (Nat.pow_pos (by decide))
      _ = 10 ^ F.scale * 2 ^ F.scale := by
        rw [hten]
        ring
      _ ≤ 10 ^ F.scale * 10 ^ Binary.decimalReach F := Nat.mul_le_mul_left _ hreach
      _ = 10 ^ (F.scale + Binary.decimalReach F) := (Nat.pow_add _ _ _).symm

/-- **The exact value of a finite number reads back.** -/
theorem readsBack_exact (hbits : 2 ≤ F.fractionBits) {code : Nat} (hpos : 0 < code)
    (h : code < F.infinity) :
    readsBack F code (exact F code).digits (exact F code).exponent = true := by
  obtain ⟨hlow, hhigh⟩ := decimalLength_exact hbits hpos h
  have hdigits : (exact F code).digits ≠ 0 := by
    have hunits := Nat.lt_of_le_of_lt (Nat.zero_le _) (BinaryFormat.units_strictMono F hpos)
    exact Nat.ne_of_gt (Nat.mul_pos hunits (Nat.pow_pos (by decide)))
  have hscale : 0 < F.scale := by
    have : F.scale = 2 ^ (F.exponentBits - 1) + F.fractionBits - 2 := rfl
    have := Nat.two_pow_pos (F.exponentBits - 1)
    omega
  have hexponent : (exact F code).exponent = -(F.scale : Int) := rfl
  have hten : 10 ^ F.scale = 5 ^ F.scale * 2 ^ F.scale := by rw [← Nat.mul_pow]
  let x : Binary F := ⟨false, code, Nat.lt_trans h F.infinity_lt_bound⟩
  have hx : Binary.ofDecimal false (exact F code).digits (exact F code).exponent = x := by
    rw [Binary.ofDecimal, hexponent, if_neg (by omega), if_neg (by omega), if_neg (by omega),
      Int.neg_neg, Int.toNat_natCast, hten, exact, Nat.mul_comm,
      Binary.ofRatio_mul_mul (Nat.pow_pos (by decide))]
    exact Binary.ofRatio_units (x := x) (decide_eq_true h)
  rw [readsBack, hx]
  exact decide_eq_true rfl

/-- **The shortest digits of a finite number read back.** -/
theorem readsBack_shortest (hbits : 2 ≤ F.fractionBits) (tie : Tie) {code : Nat} (hpos : 0 < code)
    (h : code < F.infinity) :
    readsBack F code (shortest F tie code).digits (shortest F tie code).exponent = true := by
  simp only [shortest]
  rw [readsBack, sameValue_strip, ← readsBack]
  generalize hfound : List.findSome? _ _ = found
  cases found with
  | none => exact readsBack_exact hbits hpos h
  | some d =>
    obtain ⟨n, -, hgrid⟩ := List.exists_of_findSome?_eq_some hfound
    exact readsBack_onGrid hgrid

/-! ## Positional texts -/

/-- **A text in positional notation is read as a numeral of the same value.** -/
theorem readUnsigned?_positional (d : Decimal) : ∃ digits exponent,
    Numeral.readUnsigned? d.positional = some (.finite digits exponent) ∧
      SameValue ⟨digits, exponent⟩ d := by
  have hdigits := Numeral.isDigit_toDigits d.digits
  have hne : Nat.toDigits 10 d.digits ≠ [] := Nat.toDigits_ne_nil
  simp only [positional]
  split
  · -- A whole number: zeros stand for the exponent.
    rename_i hplaces
    have hexponent : 0 + (d.exponent.toNat : Int) = d.exponent := by omega
    refine ⟨_, _, Numeral.readUnsigned?_whole (by simp [hne]) (fun c hc => ?_),
      fun F negative => ?_⟩
    · exact (List.mem_append.mp hc).elim (hdigits c) (Numeral.isDigit_replicate _ c)
    · rw [Numeral.digitsValue_append, Numeral.digitsValue_toDigits, Numeral.digitsValue_replicate,
        List.length_replicate, Nat.add_zero, Binary.ofDecimal_mul_pow, hexponent]
  · rename_i hplaces
    split
    · -- The point stands among the digits.
      rename_i hlength
      have hsplit := List.take_append_drop
        ((Nat.toDigits 10 d.digits).length - (-d.exponent).toNat) (Nat.toDigits 10 d.digits)
      have hexponent : -(((Nat.toDigits 10 d.digits).length -
          ((Nat.toDigits 10 d.digits).length - (-d.exponent).toNat) : Nat) : Int) =
            d.exponent := by omega
      refine ⟨_, _, Numeral.readUnsigned?_point (fun hnil => ?_)
        (fun c hc => hdigits c (List.mem_of_mem_take hc))
        (fun c hc => hdigits c (List.mem_of_mem_drop hc)), fun F negative => ?_⟩
      · rcases List.take_eq_nil_iff.mp hnil with hzero | hnone
        · omega
        · exact hne hnone
      · rw [hsplit, Numeral.digitsValue_toDigits, List.length_drop, hexponent]
    · -- Zeros stand between the point and the digits.
      rename_i hlength
      have hvalue (zeros : Nat) : Numeral.digitsValue
          (['0'] ++ (List.replicate zeros '0' ++ Nat.toDigits 10 d.digits)) = d.digits := by
        rw [← List.append_assoc, Numeral.digitsValue_append, Numeral.digitsValue_toDigits,
          List.singleton_append, ← List.replicate_succ, Numeral.digitsValue_replicate, Nat.zero_mul,
          Nat.zero_add]
      have hexponent : -(((-d.exponent).toNat - (Nat.toDigits 10 d.digits).length +
          (Nat.toDigits 10 d.digits).length : Nat) : Int) = d.exponent := by omega
      refine ⟨_, _, Numeral.readUnsigned?_point (List.cons_ne_nil '0' [])
        (List.forall_mem_singleton.mpr rfl) (fun c hc => ?_), fun F negative => ?_⟩
      · exact (List.mem_append.mp hc).elim (Numeral.isDigit_replicate _ c) (hdigits c)
      · rw [hvalue, List.length_append, List.length_replicate, hexponent]

end Decimal

namespace Binary

variable {F : BinaryFormat}

theorem ofDecimal_of_readsBack {x : Binary F} {digits : Nat} {exponent : Int}
    (h : Decimal.readsBack F x.magnitude digits exponent = true) :
    ofDecimal x.negative digits exponent = x := by
  obtain ⟨code, hcode⟩ := exists_ofDecimal_eq (F := F) digits exponent
  rw [Decimal.readsBack, hcode] at h
  rw [hcode, ext_iff]
  exact ⟨rfl, of_decide_eq_true h⟩

/-- The text of a number without its sign is read as a numeral, which gives the number again. -/
theorem exists_readUnsigned?_magnitudeText (hbits : 2 ≤ F.fractionBits) {x : Binary F}
    (h : x.isNaN = false) :
    ∃ n, Numeral.readUnsigned? x.magnitudeText = some n ∧ ofNumeral x.negative n = x := by
  rw [magnitudeText]
  split
  · rename_i hinfinite
    refine ⟨.infinity, by decide, ?_⟩
    have hmagnitude : x.magnitude = F.infinity := beq_iff_eq.mp hinfinite
    rw [ofNumeral, infinite, ext_iff]
    exact ⟨rfl, (magnitude_saturated (Nat.le_refl _)).trans hmagnitude.symm⟩
  · rename_i hfinite
    split
    · rename_i hzero
      refine ⟨.finite 0 0, by decide, ?_⟩
      have hmagnitude : x.magnitude = 0 := beq_iff_eq.mp hzero
      rw [ofNumeral, ofDecimal, if_pos (.inl rfl), zero, ext_iff]
      exact ⟨rfl, (magnitude_saturated (Nat.zero_le _)).trans hmagnitude.symm⟩
    · rename_i hpositive
      have hpos : 0 < x.magnitude := Nat.pos_of_ne_zero fun h0 => hpositive (beq_iff_eq.mpr h0)
      have hlt : x.magnitude < F.infinity := by
        have hle : ¬F.infinity < x.magnitude := of_decide_eq_false h
        have hne : x.magnitude ≠ F.infinity := fun heq => hfinite (beq_iff_eq.mpr heq)
        omega
      obtain ⟨digits, exponent, hread, hsame⟩ :=
        (Decimal.shortest F .up x.magnitude).readUnsigned?_positional
      refine ⟨_, hread, (hsame F x.negative).trans ?_⟩
      exact ofDecimal_of_readsBack (Decimal.readsBack_shortest hbits .up hpos hlt)

/-- **Every number is read back from its text.** -/
theorem ofText?_toText (hbits : 2 ≤ F.fractionBits) {x : Binary F} (h : x.isNaN = false) :
    ofText? x.toText = some x := by
  obtain ⟨n, hread, hn⟩ := exists_readUnsigned?_magnitudeText hbits h
  obtain ⟨hplain, -, hminus⟩ := ofText?_eq (F := F) hread
  rw [toText, if_neg (by simp [h])]
  cases hsign : x.negative with
  | false =>
    rw [hsign] at hn
    rw [if_neg Bool.false_ne_true, hplain, hn]
  | true =>
    rw [hsign] at hn
    rw [if_pos rfl, hminus, hn]

end Binary

end RowIndex
