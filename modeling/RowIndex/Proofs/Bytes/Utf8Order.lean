import RowIndex.Proofs.Bytes.HexOrder

/-!
# Proofs/Bytes/Utf8Order — texts are in the order of their bytes

The bytes of a character are the digits of its number to the base 64, each raised by an offset, and
the offset of the first tells how many follow.  So characters with greater numbers have greater
bytes, already in the first place where they differ (`compare_utf8EncodeChar`), and texts compare as
their bytes do (`compare_utf8`).
-/

namespace RowIndex.Hex

/-- The bytes of a character, by the digits of its number to the base 64. -/
theorem exists_digits (c : Char) :
    ∃ a₃ a₂ a₁ a₀ n : Nat, n = c.val.toNat ∧ n = 262144 * a₃ + 4096 * a₂ + 64 * a₁ + a₀ ∧
      a₃ ≤ 4 ∧ a₂ < 64 ∧ a₁ < 64 ∧ a₀ < 64 ∧ String.utf8EncodeChar c =
        if n ≤ 127 then [UInt8.ofNat n]
        else if n ≤ 2047 then [UInt8.ofNat (192 + a₁), UInt8.ofNat (128 + a₀)]
        else if n ≤ 65535 then
          [UInt8.ofNat (224 + a₂), UInt8.ofNat (128 + a₁), UInt8.ofNat (128 + a₀)]
        else [UInt8.ofNat (240 + a₃), UInt8.ofNat (128 + a₂), UInt8.ofNat (128 + a₁),
          UInt8.ofNat (128 + a₀)] := by
  have hc : c.val.toNat < 0x110000 := by
    have hvalid := c.valid
    simp only [UInt32.isValidChar, Nat.isValidChar] at hvalid
    omega
  refine ⟨c.val.toNat / 262144, c.val.toNat / 4096 % 64, c.val.toNat / 64 % 64, c.val.toNat % 64, _,
    rfl, by omega, by omega, by omega, by omega, by omega, ?_⟩
  simp only [String.utf8EncodeChar]
  generalize c.val.toNat = n at hc
  split
  · rfl
  split
  · rw [show n / 64 % 32 + 192 = 192 + n / 64 % 64 by omega, Nat.add_comm 128]
  split
  · rw [show n / 4096 % 16 + 224 = 224 + n / 4096 % 64 by omega, Nat.add_comm 128,
      Nat.add_comm 128]
  · rw [show n / 262144 % 8 + 240 = 240 + n / 262144 by omega, Nat.add_comm 128,
      Nat.add_comm 128, Nat.add_comm 128]

/-- The first byte decides, or else the rest. -/
theorem compare_ofNat_cons_eq_lt {m n : Nat} (hm : m < 256) (hn : n < 256) {u v : Bytes} :
    compare (UInt8.ofNat m :: u) (UInt8.ofNat n :: v) = .lt ↔
      m < n ∨ m = n ∧ compare u v = .lt := by
  rw [List.compare_cons_cons, compare_byte, UInt8.toNat_ofNat', UInt8.toNat_ofNat',
    Nat.mod_eq_of_lt hm, Nat.mod_eq_of_lt hn, Ordering.then_eq_lt, Nat.compare_eq_lt,
    Nat.compare_eq_eq]

/-- **Characters are in the order of their bytes**, whatever follows them. -/
theorem compare_utf8EncodeChar {c d : Char} (h : c < d) (u v : Bytes) :
    compare (String.utf8EncodeChar c ++ u) (String.utf8EncodeChar d ++ v) = .lt := by
  obtain ⟨a₃, a₂, a₁, a₀, m, hm, ha, ha₃, ha₂, ha₁, ha₀, hc⟩ := exists_digits c
  obtain ⟨b₃, b₂, b₁, b₀, n, hn, hb, hb₃, hb₂, hb₁, hb₀, hd⟩ := exists_digits d
  have hlt : m < n := hm ▸ hn ▸ h
  rw [hc, hd]
  -- One case for each pair of lengths: the digits are compared from the greatest to the least.
  repeat' split
  all_goals
    simp (disch := omega) only [List.cons_append, List.nil_append, compare_ofNat_cons_eq_lt]
  all_goals omega

theorem compare_append_left (s u v : Bytes) : compare (s ++ u) (s ++ v) = compare u v := by
  induction s with
  | nil => rfl
  | cons a s ih =>
    rw [List.cons_append, List.cons_append, List.compare_cons_cons, Std.ReflOrd.compare_self]
    exact ih

theorem compare_flatMap_utf8EncodeChar : ∀ s t : List Char,
    compare (s.flatMap String.utf8EncodeChar) (t.flatMap String.utf8EncodeChar) = compare s t
  | [], [] => rfl
  | [], d :: t => by
    obtain ⟨a, u, hd⟩ := List.exists_cons_of_ne_nil (String.utf8EncodeChar_ne_nil (c := d))
    rw [List.flatMap_cons, hd]
    rfl
  | c :: s, [] => by
    obtain ⟨a, u, hc⟩ := List.exists_cons_of_ne_nil (String.utf8EncodeChar_ne_nil (c := c))
    rw [List.flatMap_cons, hc]
    rfl
  | c :: s, d :: t => by
    rw [List.flatMap_cons, List.flatMap_cons, List.compare_cons_cons]
    rcases Nat.lt_trichotomy c.toNat d.toNat with h | h | h
    · rw [compare_utf8EncodeChar h, show compare c d = .lt from compareOfLessAndEq_eq_lt.mpr h]
      rfl
    · obtain rfl := Char.toNat_inj.mp h
      rw [compare_append_left, compare_flatMap_utf8EncodeChar s t, Std.ReflOrd.compare_self]
      rfl
    · rw [Std.OrientedOrd.eq_swap, compare_utf8EncodeChar h, Std.OrientedOrd.eq_swap (a := c),
        show compare d c = .lt from compareOfLessAndEq_eq_lt.mpr h]
      rfl

/-- **Texts compare as their bytes do.** -/
theorem compare_utf8 (s t : String) : compare (utf8 s) (utf8 t) = compare s t := by
  rw [utf8, utf8, compare_flatMap_utf8EncodeChar, ← compare_ofList, String.ofList_toList,
    String.ofList_toList]

/-- Texts of the same bytes are the same. -/
theorem utf8_inj {s t : String} : utf8 s = utf8 t ↔ s = t := by
  rw [← Std.LawfulEqOrd.compare_eq_iff_eq (a := s), ← compare_utf8,
    Std.LawfulEqOrd.compare_eq_iff_eq]

/-- A text has as many bytes as its characters take up. -/
theorem length_utf8_ofList (text : List Char) :
    (utf8 (String.ofList text)).length = Text.byteLength text := by
  rw [utf8, String.toList_ofList]
  induction text with
  | nil => rfl
  | cons c rest ih =>
    rw [List.flatMap_cons, List.length_append, ih, String.length_utf8EncodeChar]
    rfl

/-- The hexadecimal text of a byte string has two bytes for each byte. -/
theorem length_utf8_encode (bytes : Bytes) : (utf8 (encode bytes)).length = 2 * bytes.length := by
  rw [utf8_encode]
  induction bytes with
  | nil => rfl
  | cons byte rest ih =>
    rw [List.flatMap_cons, List.length_append, ih]
    simp only [List.length_cons, List.length_nil]
    omega

end RowIndex.Hex
