import RowIndex.Bytes.Hex
import RowIndex.Service.TokenField

/-!
# Proofs/Bytes/HexOrder — hexadecimal text is in the order of what it spells

Texts are compared digit by digit, and the sixteen digits are in the order of their values.  So the
text of a byte string is in the order of byte strings, a prefix coming first (`compare_encode`), and
numbers written with the same number of digits are in the order of their sizes (`compare_hex32`).
-/

namespace RowIndex

/-! ## Texts as lists of characters -/

/-- The order of a list is decided by its first elements, or else by the rest. -/
theorem compareOfLessAndEq_cons (c d : Char) (s t : List Char) :
    compareOfLessAndEq (c :: s) (d :: t) = (compare c d).then (compareOfLessAndEq s t) := by
  rcases Nat.lt_trichotomy c.toNat d.toNat with h | h | h
  · have hcd : c < d := h
    have hlt : c :: s < d :: t := List.cons_lt_cons_iff.mpr (Or.inl hcd)
    simp [compareOfLessAndEq, compare, hcd, hlt]
  · obtain rfl : c = d := Char.toNat_inj.mp h
    have hirr : ¬ c < c := Char.lt_irrefl c
    simp only [compareOfLessAndEq, List.cons_lt_cons_self, List.cons.injEq, true_and, compare, hirr,
      ↓reduceIte, Ordering.eq_then]
  · have hdc : d < c := h
    have hne : c ≠ d := fun heq => Char.lt_irrefl d (heq ▸ hdc)
    have hcd : ¬ c < d := Char.lt_asymm hdc
    simp [compareOfLessAndEq, compare, hne, hcd, List.cons_lt_cons_iff]

/-- **The order of texts is the order of their characters.** -/
theorem compare_ofList : ∀ s t : List Char,
    compare (String.ofList s) (String.ofList t) = compare s t := by
  have hstring (s t : List Char) :
      compare (String.ofList s) (String.ofList t) = compareOfLessAndEq s t := by
    have hlt : String.ofList s < String.ofList t ↔ s < t := by
      change (String.ofList s).toList < (String.ofList t).toList ↔ s < t
      rw [String.toList_ofList, String.toList_ofList]
    simp only [compare, String.compare, compareOfLessAndEq, hlt, String.ofList_inj]
  intro s t
  rw [hstring]
  induction s generalizing t with
  | nil => cases t <;> rfl
  | cons c s ih =>
    cases t with
    | nil => rfl
    | cons d t => rw [compareOfLessAndEq_cons, ih, List.compare_cons_cons]

namespace Hex

/-! ## Digits -/

/-- Digits are in the order of their values. -/
theorem compare_digit {m n : Nat} (hm : m < 16) (hn : n < 16) :
    compare (digit m) (digit n) = compare m n := by
  have : ∀ i j : Fin 16, compare (digit i.val) (digit j.val) = compare i.val j.val := by decide
  exact this ⟨m, hm⟩ ⟨n, hn⟩

/-- Numbers are compared by their parts above the last digit, then by the last digit. -/
theorem compare_eq_compare_div_then (m n : Nat) :
    compare m n = (compare (m / 16) (n / 16)).then (compare (m % 16) (n % 16)) := by
  rcases Nat.lt_trichotomy (m / 16) (n / 16) with h | h | h
  · rw [Nat.compare_eq_lt.mpr h, Nat.compare_eq_lt.mpr (by omega)]
    rfl
  · rw [Nat.compare_eq_eq.mpr h, Ordering.eq_then]
    simp only [Nat.compare_eq_ite_lt, show m < n ↔ m % 16 < n % 16 by omega,
      show n < m ↔ n % 16 < m % 16 by omega]
  · rw [Nat.compare_eq_gt.mpr h, Nat.compare_eq_gt.mpr (by omega)]
    rfl

/-! ## Byte strings -/

theorem compare_byte (a b : UInt8) : compare a b = compare a.toNat b.toNat := by
  simp only [compare, compareOfLessAndEq, UInt8.lt_iff_toNat_lt, UInt8.toNat_inj]

theorem encodeChars_cons (a : UInt8) (s : Bytes) :
    encodeChars (a :: s) = digit (a.toNat / 16) :: digit (a.toNat % 16) :: encodeChars s := rfl

theorem compare_encodeChars : ∀ s t : Bytes, compare (encodeChars s) (encodeChars t) = compare s t
  | [], [] => rfl
  | [], _ :: _ => rfl
  | _ :: _, [] => rfl
  | a :: s, b :: t => by
    have ha : a.toNat / 16 < 16 := by have := a.toNat_lt; omega
    have hb : b.toNat / 16 < 16 := by have := b.toNat_lt; omega
    have hmod (n : Nat) : n % 16 < 16 := Nat.mod_lt _ (by omega)
    rw [encodeChars_cons, encodeChars_cons, List.compare_cons_cons, List.compare_cons_cons,
      List.compare_cons_cons, compare_digit ha hb, compare_digit (hmod _) (hmod _),
      compare_encodeChars s t, compare_byte, compare_eq_compare_div_then a.toNat b.toNat,
      Ordering.then_assoc]

/-- **Hexadecimal texts of byte strings are in the order of the byte strings.** -/
theorem compare_encode (s t : Bytes) : compare (encode s) (encode t) = compare s t := by
  rw [encode, encode, compare_ofList, compare_encodeChars]

/-- Two byte strings with one hexadecimal text are one byte string. -/
theorem encode_inj {s t : Bytes} : encode s = encode t ↔ s = t := by
  refine ⟨fun h => ?_, fun h => h ▸ rfl⟩
  have hd := decode_encode s
  rw [h, decode_encode] at hd
  exact (Except.ok.inj hd).symm

/-! ## Numbers of a fixed number of digits -/

/-- The last `width` digits of a number. -/
def lastDigits : Nat → Nat → List Char
  | 0, _ => []
  | width + 1, n => lastDigits width (n / 16) ++ [digit (n % 16)]

theorem length_lastDigits (width n : Nat) : (lastDigits width n).length = width := by
  induction width generalizing n with
  | zero => rfl
  | succ width ih => simp [lastDigits, ih]

/-- Appended to texts of one length, a character decides only between equal ones. -/
theorem compare_append_singleton : ∀ {s t : List Char} (c d : Char), s.length = t.length →
    compare (s ++ [c]) (t ++ [d]) = (compare s t).then (compare c d)
  | [], [], c, d, _ => by
    rw [List.nil_append, List.nil_append, List.compare_cons_cons]
    cases compare c d <;> rfl
  | a :: s, b :: t, c, d, h => by
    rw [List.cons_append, List.cons_append, List.compare_cons_cons, List.compare_cons_cons,
      compare_append_singleton c d (Nat.succ.inj h), Ordering.then_assoc]

theorem compare_lastDigits (width : Nat) {m n : Nat} (hm : m < 16 ^ width) (hn : n < 16 ^ width) :
    compare (lastDigits width m) (lastDigits width n) = compare m n := by
  induction width generalizing m n with
  | zero =>
    obtain ⟨rfl, rfl⟩ : m = 0 ∧ n = 0 := by omega
    rfl
  | succ width ih =>
    have hmod (k : Nat) : k % 16 < 16 := Nat.mod_lt _ (by omega)
    rw [Nat.pow_succ] at hm hn
    rw [lastDigits, lastDigits, compare_append_singleton _ _ (by simp only [length_lastDigits]),
      ih (by omega) (by omega), compare_digit (hmod m) (hmod n), ← compare_eq_compare_div_then]

theorem digitChar_eq_digit {n : Nat} (h : n < 16) : Nat.digitChar n = digit n := by
  have : ∀ i : Fin 16, Nat.digitChar i.val = digit i.val := by decide
  exact this ⟨n, h⟩

theorem lastDigits_zero (width : Nat) : lastDigits width 0 = List.replicate width '0' := by
  induction width with
  | zero => rfl
  | succ width ih =>
    rw [lastDigits, Nat.zero_div, ih, List.replicate_succ']
    rfl

/-- A number written in full and padded with zeros is written by its last digits. -/
theorem lastDigits_eq_padded (width : Nat) {n : Nat} (h : n < 16 ^ (width + 1)) :
    List.replicate (width + 1 - (Nat.toDigits 16 n).length) '0' ++ Nat.toDigits 16 n =
      lastDigits (width + 1) n := by
  induction width generalizing n with
  | zero =>
    have hn : n < 16 := by omega
    have hmod : n % 16 = n := Nat.mod_eq_of_lt hn
    simp [Nat.toDigits_of_lt_base hn, lastDigits, digitChar_eq_digit hn, hmod]
  | succ width ih =>
    have hmod : n % 16 < 16 := Nat.mod_lt _ (by omega)
    rcases Nat.lt_or_ge n 16 with hn | hn
    · rw [Nat.toDigits_of_lt_base hn, digitChar_eq_digit hn, lastDigits, Nat.div_eq_of_lt hn,
        lastDigits_zero, Nat.mod_eq_of_lt hn]
      rfl
    · rw [Nat.pow_succ] at h
      rw [Nat.toDigits_of_base_le (by omega) hn, digitChar_eq_digit hmod, lastDigits,
        ← ih (by omega), List.length_append, ← List.append_assoc]
      congr 3
      simp only [List.length_cons, List.length_nil]
      omega

end Hex

namespace Partitioner

theorem hex32_eq {n : Nat} (h : n < 2 ^ 128) : hex32 n = String.ofList (Hex.lastDigits 32 n) := by
  rw [hex32, ← Hex.lastDigits_eq_padded 31 (by omega)]

/-- **Numbers below `2^128`, written with 32 digits, are in the order of their sizes.** -/
theorem compare_hex32 {m n : Nat} (hm : m < 2 ^ 128) (hn : n < 2 ^ 128) :
    compare (hex32 m) (hex32 n) = compare m n := by
  rw [hex32_eq hm, hex32_eq hn, compare_ofList, Hex.compare_lastDigits 32 (by omega) (by omega)]

end Partitioner

end RowIndex
