import RowIndex.Json.Basic

/-!
# Json/Printer — writing a tree without blanks

Strings escape what they must: quotes, backslashes and control characters.  Exponents always carry a
sign.
-/

namespace RowIndex.Json

/-- A number as text. -/
def Number.print (n : Number) : List Char :=
  (if n.negative then ['-'] else []) ++ Nat.toDigits 10 n.whole ++
    (if n.fraction = [] then [] else '.' :: n.fraction.map fun d => Nat.digitChar d.val) ++
    match n.exponent with
    | none => []
    | some e => 'e' :: (if e < 0 then '-' else '+') :: Nat.toDigits 10 e.natAbs

/-- A character inside quotes. -/
def printChar (c : Char) : List Char :=
  if c = '"' then ['\\', '"']
  else if c = '\\' then ['\\', '\\']
  else if c = '\n' then ['\\', 'n']
  else if c = '\t' then ['\\', 't']
  else if c = '\r' then ['\\', 'r']
  else if c = '\x08' then ['\\', 'b']
  else if c = '\x0c' then ['\\', 'f']
  else if c.toNat < 32 then
    ['\\', 'u', '0', '0', Nat.digitChar (c.toNat / 16), Nat.digitChar (c.toNat % 16)]
  else [c]

/-- A string between quotes; for one that is no text, half of a surrogate pair stands. -/
def printString : Option String → List Char
  | some text => '"' :: text.toList.flatMap printChar ++ ['"']
  | none => "\"\\ud800\"".toList

mutual

/-- A tree as text. -/
def print : Json → List Char
  | null => "null".toList
  | bool flag => if flag then "true".toList else "false".toList
  | number n => n.print
  | string text => printString text
  | array items => '[' :: printItems items ++ [']']
  | object members => '\x7b' :: printMembers members ++ ['\x7d']

/-- Items with commas between them. -/
def printItems : List Json → List Char
  | [] => []
  | [item] => print item
  | item :: rest => print item ++ ',' :: printItems rest

/-- Members with commas between them. -/
def printMembers : List (Option String × Json) → List Char
  | [] => []
  | [(name, value)] => printString name ++ ':' :: print value
  | (name, value) :: rest => printString name ++ ':' :: print value ++ ',' :: printMembers rest

end

/-- A tree as text. -/
def toText (j : Json) : String := String.ofList j.print

end RowIndex.Json
