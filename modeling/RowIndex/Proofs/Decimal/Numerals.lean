import RowIndex.Decimal.Numeral
import RowIndex.Proofs.Binary.Codes

/-!
# Proofs/Decimal/Numerals — what a numeral is read as

    sign  whole . fraction  ──digits, places──▸  digits · 10⁻ᵖˡᵃᶜᵉˢ  ──nearest──▸  number

Digits with or without a point are read as the whole number that they spell and as many places as
stand behind the point (`Numeral.readUnsigned?_whole`, `Numeral.readUnsigned?_point`), and a sign
before them is read apart (`Binary.ofText?_eq`).  Zeros at the end of the digits may as well stand
in the exponent: the number nearest to a numeral depends on its value alone
(`Binary.ofDecimal_mul_pow`).  The text of an integer is one of the numerals that spell it
(`Numeral.spells_toString`), and all of these are read as the integer, if it fits a significand
(`Binary.ofText?_of_spells`).
-/

namespace RowIndex

namespace Numeral

/-! ## Digits -/

/-- Text that does not go on with a digit. -/
def EndsDigits (rest : List Char) : Prop := ∀ c ∈ rest.head?, c.isDigit = false

theorem endsDigits_cons {c : Char} (h : c.isDigit = false) (rest : List Char) :
    EndsDigits (c :: rest) := by
  intro d hd
  obtain rfl := Option.some.inj hd
  exact h

theorem endsDigits_nil : EndsDigits [] := fun _ h => (Option.not_mem_none _ h).elim

section Digits

variable {digits rest : List Char} (hdigits : ∀ c ∈ digits, c.isDigit = true)
  (hrest : EndsDigits rest)

include hdigits hrest

theorem takeWhile_isDigit_append : (digits ++ rest).takeWhile Char.isDigit = digits := by
  rw [List.takeWhile_append_of_pos hdigits, List.append_right_eq_self]
  cases rest with
  | nil => rfl
  | cons c rest => exact List.takeWhile_cons_of_neg (by simp [hrest c rfl])

theorem dropWhile_isDigit_append : (digits ++ rest).dropWhile Char.isDigit = rest := by
  rw [List.dropWhile_append_of_pos hdigits]
  cases rest with
  | nil => rfl
  | cons c rest => exact List.dropWhile_cons_of_neg (by simp [hrest c rfl])

end Digits

theorem isDigit_toDigits (n : Nat) : ∀ c ∈ Nat.toDigits 10 n, c.isDigit = true :=
  fun _ hc => Nat.isDigit_of_mem_toDigits (by decide) (by decide) hc

theorem digitsValue_toDigits (n : Nat) : digitsValue (Nat.toDigits 10 n) = n := by
  rw [digitsValue]
  exact Nat.ofDigitChars_eq_foldl.symm.trans Nat.ofDigitChars_ten_toDigits

/-- Digits in front count ten times as much for each digit behind them. -/
theorem digitsValue_append (digits more : List Char) :
    digitsValue (digits ++ more) = digitsValue digits * 10 ^ more.length + digitsValue more := by
  have hfoldl (n : Nat) : more.foldl (fun n c => 10 * n + (c.toNat - 48)) n =
      n * 10 ^ more.length + digitsValue more := by
    unfold digitsValue
    induction more generalizing n with
    | nil => simp
    | cons c more ih =>
      rw [List.foldl_cons, ih, List.foldl_cons, ih (10 * 0 + _), List.length_cons]
      ring
  rw [digitsValue, List.foldl_append, hfoldl]
  rfl

theorem digitsValue_replicate (n : Nat) : digitsValue (List.replicate n '0') = 0 := by
  induction n with
  | zero => rfl
  | succ n ih => rw [List.replicate_succ', digitsValue_append, ih]; rfl

theorem isDigit_replicate (n : Nat) : ∀ c ∈ List.replicate n '0', c.isDigit = true := by
  intro c hc
  rw [List.eq_of_mem_replicate hc]
  rfl

/-- Decimal numerals of an integer: digits that spell its size, behind a minus if it is negative,
and behind a plus or no sign if not. -/
inductive Spells : Int → List Char → Prop
  | plain {digits : List Char} (hne : digits ≠ []) (h : ∀ c ∈ digits, c.isDigit = true) :
    Spells (digitsValue digits) digits
  | plus {digits : List Char} (hne : digits ≠ []) (h : ∀ c ∈ digits, c.isDigit = true) :
    Spells (digitsValue digits) ('+' :: digits)
  | minus {digits : List Char} (h : ∀ c ∈ digits, c.isDigit = true)
    (hvalue : digitsValue digits ≠ 0) : Spells (-digitsValue digits) ('-' :: digits)

/-- **An integer is spelled by its text.** -/
theorem spells_toString (n : Int) : Spells n (toString n).toList := by
  cases n with
  | ofNat n =>
    have hdigits : (toString (Int.ofNat n)).toList = Nat.toDigits 10 n := Nat.toList_repr
    have hplain := Spells.plain Nat.toDigits_ne_nil (isDigit_toDigits n)
    rwa [digitsValue_toDigits, ← hdigits] at hplain
  | negSucc n =>
    have hdigits : (toString (Int.negSucc n)).toList = '-' :: Nat.toDigits 10 (n + 1) := by
      change ("-" ++ (n + 1).repr).toList = _
      rw [String.toList_append, Nat.toList_repr]
      rfl
    have hminus := Spells.minus (isDigit_toDigits (n + 1))
      (by rw [digitsValue_toDigits]; exact Nat.succ_ne_zero n)
    rwa [digitsValue_toDigits, ← hdigits] at hminus

/-! ## Numerals -/

/-- Digits have no case. -/
theorem toLower_of_isDigit {c : Char} (h : c.isDigit = true) : c.toLower = c := by
  have hval : c.val ≤ 57 := by
    rw [Char.isDigit, Bool.and_eq_true, decide_eq_true_eq, decide_eq_true_eq] at h
    exact h.2
  have hupper : ¬(c.val ≥ 65 ∧ c.val ≤ 90) := fun ⟨hlow, _⟩ =>
    absurd (UInt32.le_trans hlow hval) (by decide)
  exact dif_neg hupper

/-- A text that begins with a digit is none of the words. -/
theorem readUnsigned?_cons {c : Char} (h : c.isDigit = true) (text : List Char) :
    readUnsigned? (c :: text) = readFinite? (c :: text) := by
  have hne (word : List Char) (hword : word.head?.any Char.isDigit = false) :
      (c :: text).map Char.toLower ≠ word := by
    rintro rfl
    rw [List.map_cons, List.head?_cons, Option.any_some, toLower_of_isDigit h, h] at hword
    contradiction
  rw [readUnsigned?]
  simp only [hne "nan".toList rfl, hne "inf".toList rfl, hne "infinity".toList rfl, or_self,
    if_false]

section Digits

variable {whole : List Char} (hne : whole ≠ []) (hwhole : ∀ c ∈ whole, c.isDigit = true)

include hne hwhole

theorem readUnsigned?_eq_readFinite? (rest : List Char) :
    readUnsigned? (whole ++ rest) = readFinite? (whole ++ rest) := by
  obtain ⟨c, digits, rfl⟩ := List.exists_cons_of_ne_nil hne
  exact readUnsigned?_cons (hwhole c List.mem_cons_self) _

/-- **Digits are read as the number that they spell.** -/
theorem readUnsigned?_whole : readUnsigned? whole = some (.finite (digitsValue whole) 0) := by
  have htake := takeWhile_isDigit_append hwhole endsDigits_nil
  have hdrop := dropWhile_isDigit_append hwhole endsDigits_nil
  have hread := readUnsigned?_eq_readFinite? hne hwhole []
  rw [List.append_nil] at htake hdrop hread
  rw [hread, readFinite?, htake, hdrop, readFraction]
  · simp [hne]
  · nofun

/-- **Digits with a point among them are read as all of them**, with a place for each digit behind
the point. -/
theorem readUnsigned?_point {fraction : List Char}
    (hfraction : ∀ c ∈ fraction, c.isDigit = true) :
    readUnsigned? (whole ++ '.' :: fraction) =
      some (.finite (digitsValue (whole ++ fraction)) (-(fraction.length : Int))) := by
  have hpoint : EndsDigits ('.' :: fraction) := endsDigits_cons rfl fraction
  have htake := takeWhile_isDigit_append hfraction endsDigits_nil
  have hdrop := dropWhile_isDigit_append hfraction endsDigits_nil
  rw [List.append_nil] at htake hdrop
  rw [readUnsigned?_eq_readFinite? hne hwhole, readFinite?, takeWhile_isDigit_append hwhole hpoint,
    dropWhile_isDigit_append hwhole hpoint, readFraction, htake, hdrop]
  simp [hne]

end Digits

/-- A sign is no part of a numeral. -/
theorem readUnsigned?_sign {sign : Char} (h : sign = '+' ∨ sign = '-') (text : List Char) :
    readUnsigned? (sign :: text) = none := by
  rcases h with rfl | rfl <;> simp [readUnsigned?, readFinite?, readFraction]

end Numeral

namespace Binary

variable {F : BinaryFormat}

/-! ## Signs -/

/-- What a text is read as, by the sign that it begins with, if any. -/
theorem ofText?_eq {text : List Char} {n : Numeral}
    (h : Numeral.readUnsigned? text = some n) :
    (ofText? (String.ofList text) : Option (Binary F)) = some (ofNumeral false n) ∧
      (ofText? (String.ofList ('+' :: text)) : Option (Binary F)) = some (ofNumeral false n) ∧
      (ofText? (String.ofList ('-' :: text)) : Option (Binary F)) = some (ofNumeral true n) := by
  simp only [ofText?, String.toList_ofList, h, Option.map_some, and_true]
  split
  · rw [Numeral.readUnsigned?_sign (.inl rfl)] at h
    contradiction
  · rw [Numeral.readUnsigned?_sign (.inr rfl)] at h
    contradiction
  · rw [h, Option.map_some]

/-! ## Exponents -/

/-- The magnitude of the number nearest to a numeral is the same for both signs. -/
theorem exists_ofDecimal_eq (digits : Nat) (exponent : Int) :
    ∃ code, ∀ negative, (ofDecimal negative digits exponent : Binary F) =
      saturated negative code := by
  unfold ofDecimal
  dsimp only
  split
  · exact ⟨_, fun _ => rfl⟩
  · split
    · exact ⟨_, fun _ => rfl⟩
    · split <;> exact ⟨_, fun _ => rfl⟩

theorem decimalLength_mul_ten {digits : Nat} (h : digits ≠ 0) :
    decimalLength (10 * digits) = decimalLength digits + 1 := by
  rw [decimalLength, Nat.toDigits_of_base_le (by decide) (by omega), List.length_append,
    Nat.mul_div_cancel_left _ (by decide)]
  rfl

/-- A zero at the end of the digits may stand in the exponent. -/
theorem ofDecimal_mul_ten (negative : Bool) (digits : Nat) (exponent : Int) :
    (ofDecimal negative (10 * digits) exponent : Binary F) =
      ofDecimal negative digits (exponent + 1) := by
  by_cases hzero : digits = 0
  · simp [hzero, ofDecimal]
  · have htop : (decimalLength (10 * digits) : Int) + exponent =
        decimalLength digits + (exponent + 1) := by
      rw [decimalLength_mul_ten hzero]
      omega
    have hten : 10 * digits ≠ 0 := by omega
    simp only [ofDecimal, htop, hzero, hten, false_or]
    split
    · rfl
    · split
      · rfl
      · by_cases hwhole : 0 ≤ exponent
        · have hexponent : (exponent + 1).toNat = exponent.toNat + 1 := by omega
          rw [if_pos hwhole, if_pos (by omega), hexponent, Nat.pow_succ', Nat.mul_left_comm,
            Nat.mul_assoc]
        · have hexponent : (-exponent).toNat = (-(exponent + 1)).toNat + 1 := by omega
          rw [if_neg hwhole, hexponent, Nat.pow_succ', ofRatio_mul_mul (by decide)]
          split
          · rw [show exponent + 1 = 0 by omega]
            simp
          · rfl

/-- A power of ten within the reach of a format is above the power of two that its unit is below. -/
theorem two_pow_scale_le : 2 ^ F.scale ≤ 10 ^ decimalReach F := by
  have hreach : decimalReach F = F.scale / 3 + 1 := rfl
  calc 2 ^ F.scale ≤ 2 ^ (3 * decimalReach F) :=
        Nat.pow_le_pow_right (by decide) (by omega)
    _ = 8 ^ decimalReach F := by rw [Nat.pow_mul]
    _ ≤ 10 ^ decimalReach F := Nat.pow_le_pow_left (by decide) _

/-- **The number nearest to a numeral depends on its value alone.** -/
theorem ofDecimal_mul_pow (negative : Bool) (digits zeros : Nat) (exponent : Int) :
    (ofDecimal negative (digits * 10 ^ zeros) exponent : Binary F) =
      ofDecimal negative digits (exponent + zeros) := by
  induction zeros generalizing exponent with
  | zero => simp
  | succ zeros ih =>
    rw [Nat.pow_succ, ← Nat.mul_assoc, Nat.mul_comm, ofDecimal_mul_ten, ih]
    congr 1
    omega

/-! ## Integers -/

section Integers

variable (hroom : F.fractionBits + 2 ≤ 2 ^ (F.exponentBits - 1))

include hroom

/-- The digits of an integer that fits a significand are within the reach of the format. -/
theorem ofDecimal_zero_right (negative : Bool) {digits : Nat} (hne : digits ≠ 0)
    (h : digits ≤ 2 ^ (F.fractionBits + 1)) :
    (ofDecimal negative digits 0 : Binary F) = ofRatio negative digits 1 := by
  have hscale : F.scale = 2 ^ (F.exponentBits - 1) + F.fractionBits - 2 := rfl
  have hlength : decimalLength digits ≤ decimalReach F + 1 := by
    refine (Nat.length_toDigits_le_iff (by decide) (Nat.succ_pos _)).mpr ?_
    calc digits ≤ 2 ^ (F.fractionBits + 1) := h
      _ ≤ 2 * 2 ^ F.scale := by
        rw [← Nat.pow_succ']
        exact Nat.pow_le_pow_right (by decide) (by omega)
      _ < 10 * 10 ^ decimalReach F := by
        have := two_pow_scale_le (F := F)
        have := Nat.two_pow_pos F.scale
        omega
      _ = 10 ^ (decimalReach F + 1) := Nat.pow_succ'.symm
  simp only [ofDecimal, hne, false_or]
  rw [if_neg (by omega), if_neg (by omega), if_pos (Int.le_refl 0)]
  simp

/-- The digits of an integer that fits a significand stand for the number nearest to it. -/
theorem ofDecimal_natAbs {n : Int} (hn : n.natAbs ≤ 2 ^ (F.fractionBits + 1)) :
    (ofDecimal (n < 0) n.natAbs 0 : Binary F) = ofInt n := by
  by_cases hzero : n = 0
  · rw [hzero]
    simp [ofDecimal, zero, ofInt, ofRatio, BinaryFormat.nearest, divHalfEven]
  · exact ofDecimal_zero_right hroom _ (Int.natAbs_ne_zero.mpr hzero) hn

/-- **A numeral of an integer that fits a significand is read as the integer.** -/
theorem ofText?_of_spells {n : Int} {text : List Char} (h : Numeral.Spells n text)
    (hn : n.natAbs ≤ 2 ^ (F.fractionBits + 1)) :
    (ofText? (String.ofList text) : Option (Binary F)) = some (ofInt n) := by
  rw [← ofDecimal_natAbs hroom hn]
  cases h with
  | @plain digits hne hdigits =>
    rw [(ofText?_eq (Numeral.readUnsigned?_whole hne hdigits)).1,
      decide_eq_false (Int.not_lt.mpr (Int.natCast_nonneg _))]
    rfl
  | @plus digits hne hdigits =>
    rw [(ofText?_eq (Numeral.readUnsigned?_whole hne hdigits)).2.1,
      decide_eq_false (Int.not_lt.mpr (Int.natCast_nonneg _))]
    rfl
  | @minus digits hdigits hvalue =>
    have hne : digits ≠ [] := fun hnil => hvalue (hnil ▸ rfl)
    have hnegative : -(Numeral.digitsValue digits : Int) < 0 := by omega
    rw [(ofText?_eq (Numeral.readUnsigned?_whole hne hdigits)).2.2, decide_eq_true hnegative,
      Int.natAbs_neg]
    rfl

end Integers

end Binary

end RowIndex
