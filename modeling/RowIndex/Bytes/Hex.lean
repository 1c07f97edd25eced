import RowIndex.Text.Quoted

/-!
# Bytes/Hex — byte strings as hexadecimal text

`encode` writes two lower-case digits per byte.  `decode` reads digits of either case and refuses
everything else: an odd number of bytes first, then the first byte that is no digit.
`decode_encode` says that reading undoes writing.
-/

namespace RowIndex

/-- A string of bytes. -/
abbrev Bytes := List UInt8

namespace Hex

/-- Why a text is not a hexadecimal byte string. -/
inductive Error where
  /-- The text has an odd number of bytes. -/
  | oddLength
  /-- The byte at `position` is not a digit. -/
  | invalidDigit (byte : UInt8) (position : Nat)
  deriving DecidableEq, Repr

/-- The reason in words; the offending byte is shown as a Latin-1 character. -/
def Error.message : Error → String
  | .oddLength => "Odd number of digits"
  | .invalidDigit byte position =>
    "Invalid character " ++ Text.quotedChar (Char.ofNat byte.toNat) ++ " at position " ++
      toString position

/-- The lower-case digit of a number below sixteen. -/
def digit (n : Nat) : Char :=
  Char.ofNat (if n < 10 then 48 + n else 87 + n)

/-- The value of a digit of either case, given as a byte. -/
def digitValue? (byte : UInt8) : Option Nat :=
  let n := byte.toNat
  if 48 ≤ n ∧ n ≤ 57 then some (n - 48)
  else if 97 ≤ n ∧ n ≤ 102 then some (n - 87)
  else if 65 ≤ n ∧ n ≤ 70 then some (n - 55)
  else none

/-- The digits of a byte string. -/
def encodeChars (bytes : Bytes) : List Char :=
  bytes.flatMap fun byte => [digit (byte.toNat / 16), digit (byte.toNat % 16)]

/-- The hexadecimal text of a byte string. -/
def encode (bytes : Bytes) : String :=
  String.ofList (encodeChars bytes)

/-- Read pairs of digits; `position` counts the bytes read before. -/
def decodeFrom (position : Nat) : Bytes → Except Error Bytes
  | [] => .ok []
  | [_] => .error .oddLength
  | high :: low :: rest =>
    match digitValue? high, digitValue? low with
    | none, _ => .error (.invalidDigit high position)
    | some _, none => .error (.invalidDigit low (position + 1))
    | some h, some l => (decodeFrom (position + 2) rest).map (UInt8.ofNat (h * 16 + l) :: ·)

/-- The bytes of a text in UTF-8. -/
def utf8 (text : String) : Bytes :=
  text.toList.flatMap String.utf8EncodeChar

/-- The byte string that a hexadecimal text spells. -/
def decode (text : String) : Except Error Bytes :=
  let bytes := utf8 text
  if bytes.length % 2 = 1 then .error .oddLength else decodeFrom 0 bytes

/-! ## Reading undoes writing -/

/-- Digits read back. -/
theorem digitValue?_digit {n : Nat} (h : n < 16) :
    digitValue? (UInt8.ofNat (digit n).toNat) = some n := by
  have : ∀ m : Fin 16, digitValue? (UInt8.ofNat (digit m.val).toNat) = some m.val := by decide
  exact this ⟨n, h⟩

/-- A digit takes one byte in UTF-8. -/
theorem utf8EncodeChar_digit {n : Nat} (h : n < 16) :
    String.utf8EncodeChar (digit n) = [UInt8.ofNat (digit n).toNat] := by
  have : ∀ m : Fin 16,
      String.utf8EncodeChar (digit m.val) = [UInt8.ofNat (digit m.val).toNat] := by decide
  exact this ⟨n, h⟩

theorem utf8_encode (bytes : Bytes) :
    utf8 (encode bytes) = bytes.flatMap fun byte =>
      [UInt8.ofNat (digit (byte.toNat / 16)).toNat,
        UInt8.ofNat (digit (byte.toNat % 16)).toNat] := by
  have hdiv (byte : UInt8) : byte.toNat / 16 < 16 := by have := byte.toNat_lt; omega
  have hmod (byte : UInt8) : byte.toNat % 16 < 16 := Nat.mod_lt _ (by omega)
  simp only [utf8, encode, encodeChars, String.toList_ofList, List.flatMap_assoc]
  congr 1
  funext byte
  simp [utf8EncodeChar_digit (hdiv byte), utf8EncodeChar_digit (hmod byte)]

theorem decodeFrom_utf8_encode (bytes : Bytes) :
    ∀ position, decodeFrom position (utf8 (encode bytes)) = .ok bytes := by
  rw [utf8_encode]
  induction bytes with
  | nil => intro position; rfl
  | cons byte rest ih =>
    intro position
    have hdiv : byte.toNat / 16 < 16 := by have := byte.toNat_lt; omega
    have hmod : byte.toNat % 16 < 16 := Nat.mod_lt _ (by omega)
    have hbyte : UInt8.ofNat (byte.toNat / 16 * 16 + byte.toNat % 16) = byte := by
      rw [Nat.div_add_mod', UInt8.ofNat_toNat]
    simp only [List.flatMap_cons, List.cons_append, List.nil_append, decodeFrom,
      digitValue?_digit hdiv, digitValue?_digit hmod, ih, Except.map, hbyte]

/-- **Reading undoes writing.** -/
theorem decode_encode (bytes : Bytes) : decode (encode bytes) = .ok bytes := by
  have heven : (utf8 (encode bytes)).length % 2 = 0 := by
    rw [utf8_encode]
    induction bytes with
    | nil => rfl
    | cons byte rest ih =>
      simp only [List.flatMap_cons, List.length_append, List.length_cons, List.length_nil]
      omega
  rw [decode, if_neg (by omega), decodeFrom_utf8_encode]

end Hex

end RowIndex
