import RowIndex.Decimal.Numeral
import RowIndex.Json.Basic

/-!
# Json/Parser — reading a tree from text

Every function reads one construct at the head of a text and gives what follows it.  A value is read
with fuel; every call uses some of it and takes at least one character, so the length of the text is
enough.
-/

namespace RowIndex.Json

/-- The characters that may stand between any two tokens. -/
def isBlank (c : Char) : Bool := c = ' ' || c = '\n' || c = '\t' || c = '\r'

/-- A text without the blanks at its head. -/
def skipBlanks (text : List Char) : List Char := text.dropWhile isBlank

/-! ## Numbers -/

/-- The digits at the head of a text. -/
def digitsOf (text : List Char) : List Char := text.takeWhile Char.isDigit

/-- What follows the digits at the head of a text. -/
def afterDigits (text : List Char) : List Char := text.dropWhile Char.isDigit

/-- Read a whole number: no zero stands before another digit. -/
def readWhole? (text : List Char) : Option (Nat × List Char) :=
  match digitsOf text with
  | [] => none
  | '0' :: _ :: _ => none
  | digits => some (Numeral.digitsValue digits, afterDigits text)

/-- Read the digits after a point, if there is a point. -/
def readFraction? : List Char → Option (List (Fin 10) × List Char)
  | '.' :: text =>
    match digitsOf text with
    | [] => none
    | digits =>
      some (digits.map fun c => ⟨(c.toNat - 48) % 10, Nat.mod_lt _ (by decide)⟩, afterDigits text)
  | text => some ([], text)

/-- Read the digits of an exponent. -/
def readPower? (text : List Char) : Option (Nat × List Char) :=
  match digitsOf text with
  | [] => none
  | digits => some (Numeral.digitsValue digits, afterDigits text)

/-- Read an exponent after its mark. -/
def readSigned? : List Char → Option (Int × List Char)
  | '+' :: text => (readPower? text).map fun (n, rest) => ((n : Int), rest)
  | '-' :: text => (readPower? text).map fun (n, rest) => (-(n : Int), rest)
  | text => (readPower? text).map fun (n, rest) => ((n : Int), rest)

/-- Read an exponent, if there is one. -/
def readExponent? : List Char → Option (Option Int × List Char)
  | 'e' :: text | 'E' :: text => (readSigned? text).map fun (e, rest) => (some e, rest)
  | text => some (none, text)

/-- Read a number without its sign. -/
def readMagnitude? (negative : Bool) (text : List Char) : Option (Number × List Char) := do
  let (whole, text) ← readWhole? text
  let (fraction, text) ← readFraction? text
  let (exponent, text) ← readExponent? text
  return ({ negative, whole, fraction, exponent }, text)

/-- Read a number. -/
def readNumber? : List Char → Option (Number × List Char)
  | '-' :: text => readMagnitude? true text
  | text => readMagnitude? false text

/-! ## Strings -/

/-- A part of a string as it is written. -/
inductive Piece where
  | char (c : Char)
  /-- A code unit of UTF-16, written by its number. -/
  | unit (n : Nat)

/-- The number that four hexadecimal digits spell. -/
def hexValue? (digits : List Char) : Option Nat :=
  digits.foldlM (fun n c => (hexDigit? c).map (16 * n + ·)) 0
where
  /-- The value of one digit, of either case. -/
  hexDigit? (c : Char) : Option Nat :=
    if c.isDigit then some (c.toNat - 48)
    else if 'a' ≤ c ∧ c ≤ 'f' then some (c.toNat - 87)
    else if 'A' ≤ c ∧ c ≤ 'F' then some (c.toNat - 55)
    else none

/-- The character that a letter stands for after a backslash. -/
def unescape? : Char → Option Char
  | '"' => some '"'
  | '\\' => some '\\'
  | '/' => some '/'
  | 'b' => some '\x08'
  | 'f' => some '\x0c'
  | 'n' => some '\n'
  | 'r' => some '\r'
  | 't' => some '\t'
  | _ => none

/-- Read the pieces of a string up to its closing quote. -/
def readPieces? : List Char → Option (List Piece × List Char)
  | [] => none
  | '"' :: rest => some ([], rest)
  | '\\' :: 'u' :: a :: b :: c :: d :: rest => do
    let n ← hexValue? [a, b, c, d]
    let (pieces, rest) ← readPieces? rest
    return (.unit n :: pieces, rest)
  | '\\' :: c :: rest => do
    let c ← unescape? c
    let (pieces, rest) ← readPieces? rest
    return (.char c :: pieces, rest)
  | c :: rest =>
    if c = '\\' ∨ c.toNat < 32 then none
    else do
      let (pieces, rest) ← readPieces? rest
      return (.char c :: pieces, rest)

/-- Whether a code unit is the first half of a surrogate pair. -/
def isLead (n : Nat) : Bool := 0xD800 ≤ n && n < 0xDC00

/-- Whether a code unit is the second half of a surrogate pair. -/
def isTrail (n : Nat) : Bool := 0xDC00 ≤ n && n < 0xE000

/-- The text of a list of pieces; none if half of a surrogate pair stands alone. -/
def join? : List Piece → Option (List Char)
  | [] => some []
  | .unit lead :: .unit trail :: rest =>
    if isLead lead then
      if isTrail trail then
        (join? rest).map (Char.ofNat (0x10000 + (lead - 0xD800) * 0x400 + (trail - 0xDC00)) :: ·)
      else none
    else if isTrail lead then none
    else (join? (.unit trail :: rest)).map (Char.ofNat lead :: ·)
  | .unit n :: rest =>
    if isLead n || isTrail n then none else (join? rest).map (Char.ofNat n :: ·)
  | .char c :: rest => (join? rest).map (c :: ·)

/-- Read a string after its opening quote. -/
def readString? (text : List Char) : Option (Option String × List Char) :=
  (readPieces? text).map fun (pieces, rest) => ((join? pieces).map String.ofList, rest)

/-! ## Values -/

mutual

/-- Read a value. -/
def readValue? : (fuel : Nat) → List Char → Option (Json × List Char)
  | 0, _ => none
  | fuel + 1, text =>
    match skipBlanks text with
    | 'n' :: 'u' :: 'l' :: 'l' :: rest => some (null, rest)
    | 't' :: 'r' :: 'u' :: 'e' :: rest => some (bool true, rest)
    | 'f' :: 'a' :: 'l' :: 's' :: 'e' :: rest => some (bool false, rest)
    | '"' :: rest => (readString? rest).map fun (text, rest) => (string text, rest)
    | '[' :: rest =>
      match skipBlanks rest with
      | ']' :: rest => some (array [], rest)
      | _ => (readItems? fuel rest).map fun (items, rest) => (array items, rest)
    | '\x7b' :: rest =>
      match skipBlanks rest with
      | '\x7d' :: rest => some (object [], rest)
      | _ => (readMembers? fuel rest).map fun (members, rest) => (object members, rest)
    | rest => (readNumber? rest).map fun (n, rest) => (number n, rest)

/-- Read the items of an array, of which there is at least one, and its end. -/
def readItems? : (fuel : Nat) → List Char → Option (List Json × List Char)
  | 0, _ => none
  | fuel + 1, text => do
    let (item, rest) ← readValue? fuel text
    match skipBlanks rest with
    | ',' :: rest => do
      let (items, rest) ← readItems? fuel rest
      return (item :: items, rest)
    | ']' :: rest => return ([item], rest)
    | _ => none

/-- Read the members of an object, of which there is at least one, and its end. -/
def readMembers? : (fuel : Nat) → List Char → Option (List (Option String × Json) × List Char)
  | 0, _ => none
  | fuel + 1, text =>
    match skipBlanks text with
    | '"' :: rest => do
      let (name, rest) ← readString? rest
      match skipBlanks rest with
      | ':' :: rest => do
        let (value, rest) ← readValue? fuel rest
        match skipBlanks rest with
        | ',' :: rest => do
          let (members, rest) ← readMembers? fuel rest
          return ((name, value) :: members, rest)
        | '\x7d' :: rest => return ([(name, value)], rest)
        | _ => none
      | _ => none
    | _ => none

end

/-- The tree of a text, if all of it is one value with blanks around. -/
def ofText? (text : String) : Option Json :=
  let chars := text.toList
  match readValue? (chars.length + 1) chars with
  | some (j, rest) => if skipBlanks rest = [] then some j else none
  | none => none

end RowIndex.Json
