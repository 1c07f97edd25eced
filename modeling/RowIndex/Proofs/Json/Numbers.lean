import RowIndex.Json.Parser
import RowIndex.Json.Printer
import RowIndex.Proofs.Decimal.Numerals

/-!
# Proofs/Json/Numbers — a printed number is read back

A number ends where the text goes on with something that cannot belong to it (`EndsNumber`).  Its
whole part, its fraction and its exponent are read one after another, each up to the next
(`readNumber?_print`).
-/

namespace RowIndex.Json

open Numeral (EndsDigits endsDigits_cons isDigit_toDigits digitsValue_toDigits)

/-! ## Digits -/

section Digits

variable {digits rest : List Char} (hdigits : ∀ c ∈ digits, c.isDigit = true)
  (hrest : EndsDigits rest)

include hdigits hrest

theorem digitsOf_append : digitsOf (digits ++ rest) = digits :=
  Numeral.takeWhile_isDigit_append hdigits hrest

theorem afterDigits_append : afterDigits (digits ++ rest) = rest :=
  Numeral.dropWhile_isDigit_append hdigits hrest

end Digits

theorem exists_toDigits_eq_cons (n : Nat) :
    ∃ c digits, Nat.toDigits 10 n = c :: digits ∧ c.isDigit = true := by
  obtain ⟨c, digits, h⟩ := List.exists_cons_of_ne_nil (Nat.toDigits_ne_nil (n := n) (b := 10))
  exact ⟨c, digits, h, isDigit_toDigits n c (h ▸ List.mem_cons_self)⟩

/-- A positive number has no leading zero. -/
theorem head?_toDigits_ne (n : Nat) (hn : 0 < n) : (Nat.toDigits 10 n).head? ≠ some '0' := by
  induction n using Nat.strongRecOn with
  | ind n ih =>
    rcases Nat.lt_or_ge n 10 with hlt | hge
    · have hdigit : ∀ i : Fin 10, 0 < i.val → Nat.digitChar i.val ≠ '0' := by decide
      rw [Nat.toDigits_of_lt_base hlt]
      exact fun h => hdigit ⟨n, hlt⟩ hn (Option.some.inj h)
    · have hhead : (Nat.toDigits 10 n).head? = (Nat.toDigits 10 (n / 10)).head? := by
        obtain ⟨c, digits, h, -⟩ := exists_toDigits_eq_cons (n / 10)
        rw [Nat.toDigits_of_base_le (by decide) hge, h]
        rfl
      rw [hhead]
      exact ih (n / 10) (by omega) (by omega)

/-- No zero stands before another digit. -/
theorem toDigits_ne_zero_cons (n : Nat) (c : Char) (digits : List Char) :
    Nat.toDigits 10 n ≠ '0' :: c :: digits := by
  intro h
  rcases Nat.eq_zero_or_pos n with rfl | hn
  · exact absurd (congrArg List.length h) (by simp)
  · exact head?_toDigits_ne n hn (by rw [h]; rfl)

/-- The digit of a printed fraction is read as itself. -/
theorem value_digitChar (d : Fin 10) :
    (⟨((Nat.digitChar d.val).toNat - 48) % 10, Nat.mod_lt _ (by decide)⟩ : Fin 10) = d := by
  revert d
  decide

theorem isDigit_digitChar (d : Fin 10) : (Nat.digitChar d.val).isDigit = true := by
  revert d
  decide

/-! ## Parts of a number -/

/-- **A whole number is read up to what follows it.** -/
theorem readWhole?_toDigits (n : Nat) {rest : List Char} (hrest : EndsDigits rest) :
    readWhole? (Nat.toDigits 10 n ++ rest) = some (n, rest) := by
  rw [readWhole?, digitsOf_append (isDigit_toDigits n) hrest,
    afterDigits_append (isDigit_toDigits n) hrest]
  split
  · rename_i h
    exact absurd h Nat.toDigits_ne_nil
  · rename_i h
    exact absurd h (toDigits_ne_zero_cons n _ _)
  · rw [digitsValue_toDigits]

/-- **The digits of an exponent are read up to what follows them.** -/
theorem readPower?_toDigits (n : Nat) {rest : List Char} (hrest : EndsDigits rest) :
    readPower? (Nat.toDigits 10 n ++ rest) = some (n, rest) := by
  rw [readPower?, digitsOf_append (isDigit_toDigits n) hrest,
    afterDigits_append (isDigit_toDigits n) hrest]
  split
  · rename_i h
    exact absurd h Nat.toDigits_ne_nil
  · rw [digitsValue_toDigits]

/-- A fraction with its point. -/
def printFraction (fraction : List (Fin 10)) : List Char :=
  if fraction = [] then [] else '.' :: fraction.map fun d => Nat.digitChar d.val

/-- An exponent with its mark and its sign. -/
def printExponent : Option Int → List Char
  | none => []
  | some e => 'e' :: (if e < 0 then '-' else '+') :: Nat.toDigits 10 e.natAbs

theorem print_number_eq (n : Number) :
    n.print = (if n.negative then ['-'] else []) ++
      (Nat.toDigits 10 n.whole ++ (printFraction n.fraction ++ printExponent n.exponent)) := by
  rw [Number.print, printFraction, List.append_assoc, List.append_assoc]
  cases n.exponent <;> rfl

/-- Text that goes on with nothing that can belong to a number. -/
def EndsNumber (rest : List Char) : Prop :=
  ∀ c ∈ rest.head?, c.isDigit = false ∧ c ≠ '.' ∧ c ≠ 'e' ∧ c ≠ 'E'

theorem EndsNumber.endsDigits {rest : List Char} (h : EndsNumber rest) : EndsDigits rest :=
  fun c hc => (h c hc).1

theorem endsDigits_printExponent {rest : List Char} (h : EndsNumber rest) (e : Option Int) :
    EndsDigits (printExponent e ++ rest) := by
  cases e with
  | none => exact h.endsDigits
  | some e => exact endsDigits_cons (by decide) _

theorem endsDigits_printFraction {rest : List Char} (h : EndsDigits rest)
    (fraction : List (Fin 10)) : EndsDigits (printFraction fraction ++ rest) := by
  rw [printFraction]
  split
  · exact h
  · exact endsDigits_cons (by decide) _

/-- A fraction is read up to the exponent. -/
theorem readFraction?_print (fraction : List (Fin 10)) {rest : List Char} (e : Option Int)
    (hrest : EndsNumber rest) :
    readFraction? (printFraction fraction ++ (printExponent e ++ rest)) =
      some (fraction, printExponent e ++ rest) := by
  have hafter := endsDigits_printExponent hrest e
  by_cases hnil : fraction = []
  · -- Without a fraction the text goes on with the exponent, or with what follows the number.
    have hpoint (text : List Char) : printExponent e ++ rest ≠ '.' :: text := by
      cases e with
      | none =>
        intro h
        exact (hrest '.' (by rw [printExponent, List.nil_append] at h; rw [h]; rfl)).2.1 rfl
      | some e => exact fun h => absurd (List.cons.inj h).1 (by decide)
    rw [printFraction, if_pos hnil, List.nil_append, hnil, readFraction?]
    exact hpoint
  · have hdigits : ∀ c ∈ fraction.map fun d => Nat.digitChar d.val, c.isDigit = true := by
      intro c hc
      obtain ⟨d, -, rfl⟩ := List.mem_map.mp hc
      exact isDigit_digitChar d
    rw [printFraction, if_neg hnil, List.cons_append, readFraction?,
      digitsOf_append hdigits hafter, afterDigits_append hdigits hafter]
    split
    · rename_i h
      exact absurd (List.map_eq_nil_iff.mp h) hnil
    · rw [List.map_map]
      simp only [Function.comp_def, value_digitChar, List.map_id']

/-- An exponent is read up to the end of the number. -/
theorem readExponent?_print (e : Option Int) {rest : List Char} (hrest : EndsNumber rest) :
    readExponent? (printExponent e ++ rest) = some (e, rest) := by
  cases e with
  | none =>
    have hmark {c : Char} {text : List Char} (h : rest = c :: text) : c ≠ 'e' ∧ c ≠ 'E' :=
      (hrest c (by rw [h]; rfl)).2.2
    rw [printExponent, List.nil_append, readExponent?]
    · exact fun text h => (hmark h).1 rfl
    · exact fun text h => (hmark h).2 rfl
  | some e =>
    have hpower := readPower?_toDigits e.natAbs hrest.endsDigits
    rw [printExponent, List.cons_append, List.cons_append, readExponent?]
    split
    · rename_i hneg
      rw [readSigned?, hpower]
      simp only [Option.map_some]
      rw [Int.ofNat_natAbs_of_nonpos (by omega), Int.neg_neg]
    · rename_i hpos
      rw [readSigned?, hpower]
      simp only [Option.map_some]
      rw [Int.natAbs_of_nonneg (by omega)]

/-! ## Numbers -/

/-- **A printed number is read back**, if what follows cannot belong to it. -/
theorem readNumber?_print (n : Number) {rest : List Char} (hrest : EndsNumber rest) :
    readNumber? (n.print ++ rest) = some (n, rest) := by
  obtain ⟨negative, whole, fraction, exponent⟩ := n
  have hmagnitude (negative : Bool) : readMagnitude? negative (Nat.toDigits 10 whole ++
      (printFraction fraction ++ (printExponent exponent ++ rest))) =
      some (⟨negative, whole, fraction, exponent⟩, rest) := by
    rw [readMagnitude?, readWhole?_toDigits whole
      (endsDigits_printFraction (endsDigits_printExponent hrest exponent) fraction)]
    simp only [bind, Option.bind, readFraction?_print fraction exponent hrest,
      readExponent?_print exponent hrest]
    rfl
  rw [print_number_eq]
  simp only [List.append_assoc]
  cases negative with
  | true => exact hmagnitude true
  | false =>
    have hsign (text : List Char) : Nat.toDigits 10 whole ++
        (printFraction fraction ++ (printExponent exponent ++ rest)) ≠ '-' :: text := by
      obtain ⟨c, digits, h, hc⟩ := exists_toDigits_eq_cons whole
      rw [h]
      rintro h
      obtain rfl := (List.cons.inj h).1
      exact absurd hc (by decide)
    rw [if_neg Bool.false_ne_true, List.nil_append, readNumber?]
    · exact hmagnitude false
    · exact hsign

/-- A printed number starts with its sign or a digit. -/
theorem exists_print_number_eq_cons (n : Number) :
    ∃ c text, n.print = c :: text ∧ (c = '-' ∨ c.isDigit = true) := by
  rw [print_number_eq]
  cases n.negative with
  | true => exact ⟨'-', _, rfl, Or.inl rfl⟩
  | false =>
    obtain ⟨c, digits, h, hc⟩ := exists_toDigits_eq_cons n.whole
    exact ⟨c, _, by rw [h]; rfl, Or.inr hc⟩

end RowIndex.Json
