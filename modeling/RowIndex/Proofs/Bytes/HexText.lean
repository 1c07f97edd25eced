import RowIndex.Proofs.Bytes.HexOrder
import RowIndex.Proofs.Outcomes
import RowIndex.Text.LowerCase

/-!
# Proofs/Bytes/HexText — which texts are hexadecimal, and what they spell

    text ──utf8──▸ bytes ──digitValue?──▸ values, two by two ──▸ byte string
      │                                                            │
      └──────lower case──────▸ digits ◂────────────encode──────────┘

Decoding looks at the bytes of a text, of which those of a character beyond ASCII are no digits
(`map_digitValue?_iff`).  So a text spells a byte string exactly if it is the hexadecimal text of
that string in some mixture of cases (`decode_eq_ok_iff`), and spells one at all exactly if it has
an even number of digits (`exists_decode_iff`).
-/

namespace RowIndex.Hex

/-- A hexadecimal digit in either case. -/
def IsDigit (c : Char) : Prop :=
  ('0' ≤ c ∧ c ≤ '9') ∨ ('a' ≤ c ∧ c ≤ 'f') ∨ ('A' ≤ c ∧ c ≤ 'F')

instance : DecidablePred IsDigit := fun _ => inferInstanceAs (Decidable (_ ∨ _ ∨ _))

/-! ## Single characters -/

theorem isDigit_iff_toNat {c : Char} :
    IsDigit c ↔ (48 ≤ c.toNat ∧ c.toNat ≤ 57) ∨ (97 ≤ c.toNat ∧ c.toNat ≤ 102) ∨
      (65 ≤ c.toNat ∧ c.toNat ≤ 70) := Iff.rfl

theorem IsDigit.toNat_lt {c : Char} (h : IsDigit c) : c.toNat < 128 := by
  rw [isDigit_iff_toNat] at h
  omega

/-- Only capitals have another lower case. -/
theorem toNat_toLower (c : Char) :
    c.toLower.toNat = if 65 ≤ c.toNat ∧ c.toNat ≤ 90 then c.toNat + 32 else c.toNat := by
  by_cases h : 65 ≤ c.toNat ∧ c.toNat ≤ 90
  · have hval : c.toLower.val = c.val + 32 := congrArg Char.val (dif_pos h)
    have hadd : (c.val + 32).toNat = c.val.toNat + 32 := by
      rw [UInt32.toNat_add]
      exact Nat.mod_eq_of_lt (Nat.lt_of_le_of_lt (Nat.add_le_add_right h.2 32) (by decide))
    rw [if_pos h]
    exact (congrArg UInt32.toNat hval).trans hadd
  · rw [if_neg h]
    exact congrArg Char.toNat (dif_neg h)

/-- Two characters become the digit of a value above nine. -/
theorem toLower_eq_digit_iff {c : Char} {n : Nat} (hn : n < 16) :
    c.toLower = digit n ↔
      n < 10 ∧ c.toNat = 48 + n ∨ 10 ≤ n ∧ (c.toNat = 87 + n ∨ c.toNat = 55 + n) := by
  have hdigits : ∀ i : Fin 16,
      (digit i.val).toNat = if i.val < 10 then 48 + i.val else 87 + i.val := by decide
  have hdigit : (digit n).toNat = if n < 10 then 48 + n else 87 + n := hdigits ⟨n, hn⟩
  rw [← Char.toNat_inj, toNat_toLower, hdigit]
  split <;> split <;> omega

/-- **The digits are the characters whose lower case is one of the sixteen.** -/
theorem isDigit_iff {c : Char} : IsDigit c ↔ ∃ n < 16, c.toLower = digit n := by
  rw [isDigit_iff_toNat]
  constructor
  · rintro (h | h | h)
    · exact ⟨c.toNat - 48, by omega, (toLower_eq_digit_iff (by omega)).mpr (by omega)⟩
    · exact ⟨c.toNat - 87, by omega, (toLower_eq_digit_iff (by omega)).mpr (by omega)⟩
    · exact ⟨c.toNat - 55, by omega, (toLower_eq_digit_iff (by omega)).mpr (by omega)⟩
  · rintro ⟨n, hn, h⟩
    rw [toLower_eq_digit_iff hn] at h
    omega

/-- The byte of a digit is read as the digit's value. -/
theorem digitValue?_iff {c : Char} (hc : c.toNat < 128) {n : Nat} (hn : n < 16) :
    digitValue? (UInt8.ofNat c.toNat) = some n ↔ c.toLower = digit n := by
  have hbyte : (UInt8.ofNat c.toNat).toNat = c.toNat := by
    rw [UInt8.toNat_ofNat', Nat.mod_eq_of_lt (by omega)]
  simp only [toLower_eq_digit_iff hn, digitValue?, hbyte]
  repeat' split
  all_goals simp only [Option.some.injEq, reduceCtorEq, false_iff]
  all_goals omega

/-- A character of ASCII takes one byte. -/
theorem utf8EncodeChar_ascii {c : Char} (hc : c.toNat < 128) :
    String.utf8EncodeChar c = [UInt8.ofNat c.toNat] := by
  have hval : c.val.toNat = c.toNat := rfl
  simp only [String.utf8EncodeChar, hval]
  rw [if_pos (by omega)]

theorem digitValue?_of_le {byte : UInt8} (h : 128 ≤ byte.toNat) : digitValue? byte = none := by
  simp only [digitValue?]
  repeat' rw [if_neg (by omega)]

/-- **A character beyond ASCII begins with a byte that is no digit.** -/
theorem exists_utf8EncodeChar {c : Char} (hc : 128 ≤ c.toNat) :
    ∃ byte rest, String.utf8EncodeChar c = byte :: rest ∧ digitValue? byte = none := by
  have hlead {n : Nat} (hlow : 128 ≤ n) (hhigh : n < 256) : digitValue? (UInt8.ofNat n) = none := by
    refine digitValue?_of_le ?_
    rw [UInt8.toNat_ofNat']
    omega
  have hval : c.val.toNat = c.toNat := rfl
  simp only [String.utf8EncodeChar, hval]
  rw [if_neg (by omega)]
  split
  · exact ⟨_, _, rfl, hlead (by omega) (by omega)⟩
  split
  · exact ⟨_, _, rfl, hlead (by omega) (by omega)⟩
  · exact ⟨_, _, rfl, hlead (by omega) (by omega)⟩

/-- **The bytes of a text read as values exactly if its lower case is the digits of the values.** -/
theorem map_digitValue?_iff {text : List Char} {values : List Nat}
    (hvalues : ∀ n ∈ values, n < 16) :
    (text.flatMap String.utf8EncodeChar).map digitValue? = values.map some ↔
      text.map Char.toLower = values.map digit := by
  induction text generalizing values with
  | nil => cases values <;> simp
  | cons c text ih =>
    rw [List.flatMap_cons, List.map_append, List.map_cons]
    by_cases hc : c.toNat < 128
    · cases values with
      | nil => simp [utf8EncodeChar_ascii hc]
      | cons n values =>
        obtain ⟨hn, hvalues⟩ := List.forall_mem_cons.mp hvalues
        rw [utf8EncodeChar_ascii hc, List.map_singleton, List.singleton_append, List.map_cons,
          List.cons.injEq, digitValue?_iff hc hn, ih hvalues, List.map_cons, List.cons.injEq]
    · obtain ⟨byte, rest, hencode, hnone⟩ := exists_utf8EncodeChar (c := c) (by omega)
      cases values with
      | nil => simp [hencode]
      | cons n values =>
        have hne : c.toLower ≠ digit n := fun heq =>
          hc (isDigit_iff.mpr ⟨n, hvalues n List.mem_cons_self, heq⟩).toNat_lt
        simp [hencode, hnone, hne]

/-! ## Whole texts -/

/-- The values of the digits of a byte string. -/
def nibbles (bytes : Bytes) : List Nat :=
  bytes.flatMap fun byte => [byte.toNat / 16, byte.toNat % 16]

theorem encodeChars_eq (bytes : Bytes) : encodeChars bytes = (nibbles bytes).map digit := by
  rw [encodeChars, nibbles, List.map_flatMap]
  rfl

theorem lt_of_mem_nibbles {bytes : Bytes} {n : Nat} (h : n ∈ nibbles bytes) : n < 16 := by
  obtain ⟨byte, -, h⟩ := List.mem_flatMap.mp h
  have hbyte := byte.toNat_lt
  rcases List.mem_cons.mp h with rfl | h
  · omega
  · rw [List.mem_singleton.mp h]
    omega

theorem nibbles_cons (byte : UInt8) (bytes : Bytes) :
    nibbles (byte :: bytes) = byte.toNat / 16 :: byte.toNat % 16 :: nibbles bytes := rfl

theorem length_nibbles (bytes : Bytes) : (nibbles bytes).length = 2 * bytes.length := by
  induction bytes with
  | nil => rfl
  | cons byte bytes ih =>
    rw [nibbles_cons, List.length_cons, List.length_cons, List.length_cons, ih]
    omega

theorem lt_of_digitValue? {byte : UInt8} {n : Nat} (h : digitValue? byte = some n) : n < 16 := by
  simp only [digitValue?] at h
  split at h
  · cases h; omega
  split at h
  · cases h; omega
  split at h
  · cases h; omega
  · contradiction

/-- Two values below sixteen are those of exactly one byte. -/
theorem ofNat_eq_iff {high low : Nat} (hhigh : high < 16) (hlow : low < 16) (byte : UInt8) :
    UInt8.ofNat (high * 16 + low) = byte ↔ high = byte.toNat / 16 ∧ low = byte.toNat % 16 := by
  have hbyte := byte.toNat_lt
  rw [← UInt8.toNat_inj, UInt8.toNat_ofNat', Nat.mod_eq_of_lt (by omega)]
  omega

/-- **Pairs of digits are read as the bytes of which they are the values.** -/
theorem decodeFrom_eq_ok_iff {position : Nat} {text bytes : Bytes} :
    decodeFrom position text = .ok bytes ↔ text.map digitValue? = (nibbles bytes).map some := by
  fun_induction decodeFrom position text generalizing bytes with
  | case1 => cases bytes <;> simp [nibbles]
  | case2 => cases bytes <;> simp [nibbles]
  | case3 position high low rest hhigh => cases bytes <;> simp [nibbles, hhigh]
  | case4 position high low rest h hhigh hlow => cases bytes <;> simp [nibbles, hhigh, hlow]
  | case5 position high low rest h l hlow hhigh ih =>
    rw [map_eq_ok_iff]
    cases bytes with
    | nil => simp [nibbles]
    | cons byte bytes =>
      have hpair := ofNat_eq_iff (lt_of_digitValue? hhigh) (lt_of_digitValue? hlow) byte
      simp only [ih, List.map_cons, nibbles_cons, hhigh, hlow, List.cons.injEq, Option.some.injEq,
        hpair]
      constructor
      · rintro ⟨bytes', hrest, ⟨hh, hl⟩, rfl⟩
        exact ⟨hh, hl, hrest⟩
      · rintro ⟨hh, hl, hrest⟩
        exact ⟨bytes, hrest, ⟨hh, hl⟩, rfl⟩

/-- **A text spells a byte string exactly if its lower case is the hexadecimal text of it.** -/
theorem decode_eq_ok_iff {text : String} {bytes : Bytes} :
    decode text = .ok bytes ↔ text.toList.map Char.toLower = encodeChars bytes := by
  rw [encodeChars_eq, ← map_digitValue?_iff fun _ => lt_of_mem_nibbles, decode]
  change (if (utf8 text).length % 2 = 1 then _ else _) = _ ↔ (utf8 text).map digitValue? = _
  split
  · rename_i hodd
    refine ⟨fun h => by contradiction, fun heq => ?_⟩
    have heven := congrArg List.length heq
    rw [List.length_map, List.length_map, length_nibbles] at heven
    omega
  · exact decodeFrom_eq_ok_iff

/-- An even number of digits. -/
def Digits (text : List Char) : Prop := text.length % 2 = 0 ∧ ∀ c ∈ text, IsDigit c

-- The characters of the text are tried, and not all characters there are.
instance : DecidablePred Digits := fun text =>
  @instDecidableAnd _ _ _ (List.decidableBAll IsDigit text)

/-- Characters that spell bytes are an even number of digits. -/
theorem digits_of_map_toLower {text : List Char} {bytes : Bytes}
    (h : text.map Char.toLower = encodeChars bytes) : Digits text := by
  rw [encodeChars_eq] at h
  constructor
  · have hlength := congrArg List.length h
    rw [List.length_map, List.length_map] at hlength
    rw [hlength, length_nibbles]
    exact Nat.mul_mod_right 2 _
  · intro c hc
    obtain ⟨n, hn, heq⟩ := List.mem_map.mp (h ▸ List.mem_map_of_mem hc)
    exact isDigit_iff.mpr ⟨n, lt_of_mem_nibbles hn, heq.symm⟩

/-- Every even number of digits spells bytes. -/
theorem Digits.exists_encodeChars :
    ∀ {text : List Char}, Digits text → ∃ bytes, text.map Char.toLower = encodeChars bytes
  | [], _ => ⟨[], rfl⟩
  | [_], h => by simp [Digits] at h
  | c :: d :: text, ⟨heven, hdigits⟩ => by
    obtain ⟨hc, hdigits⟩ := List.forall_mem_cons.mp hdigits
    obtain ⟨hd, hdigits⟩ := List.forall_mem_cons.mp hdigits
    obtain ⟨high, hhigh, hcl⟩ := isDigit_iff.mp hc
    obtain ⟨low, hlow, hdl⟩ := isDigit_iff.mp hd
    have hrest : Digits text := by
      refine ⟨?_, hdigits⟩
      rw [List.length_cons, List.length_cons] at heven
      omega
    obtain ⟨bytes, hbytes⟩ := hrest.exists_encodeChars
    obtain ⟨hh, hl⟩ := (ofNat_eq_iff hhigh hlow _).mp rfl
    refine ⟨UInt8.ofNat (high * 16 + low) :: bytes, ?_⟩
    rw [encodeChars_cons, ← hh, ← hl, List.map_cons, List.map_cons, hcl, hdl, hbytes]

/-- **Characters spell bytes exactly if they are an even number of digits.** -/
theorem exists_encodeChars_iff {text : List Char} :
    (∃ bytes, text.map Char.toLower = encodeChars bytes) ↔ Digits text :=
  ⟨fun ⟨_, h⟩ => digits_of_map_toLower h, Digits.exists_encodeChars⟩

/-- **A text spells a byte string exactly if it is an even number of digits.** -/
theorem exists_decode_iff {text : String} :
    (∃ bytes, decode text = .ok bytes) ↔ Digits text.toList := by
  simp only [decode_eq_ok_iff, exists_encodeChars_iff]

/-- **What a text spells is written as the text in lower case.** -/
theorem encode_of_decode {text : String} {bytes : Bytes} (h : decode text = .ok bytes) :
    encode bytes = Text.toLower text := by
  have hdigits : Digits text.toList := exists_decode_iff.mp ⟨bytes, h⟩
  rw [encode, ← decode_eq_ok_iff.mp h, Text.toLower_of_ascii fun c hc => (hdigits.2 c hc).toNat_lt]

end RowIndex.Hex
