import RowIndex.Text.Printable

/-!
# Text/Quoted — text between quotes, on one line and free of invisible characters

A message that quotes foreign text must stay readable: line breaks, quotes and backslashes are
escaped, and a character that would not show is spelled by its code point, as in `\u{200b}`.
-/

namespace RowIndex.Text

/-- One character inside `quote` marks. -/
def escaped (quote c : Char) : String :=
  if c = '\x00' then "\\0"
  else if c = '\t' then "\\t"
  else if c = '\r' then "\\r"
  else if c = '\n' then "\\n"
  else if c = '\\' || c = quote then String.ofList ['\\', c]
  else if isPrintable c then String.singleton c
  else "\\u\x7b" ++ String.ofList (Nat.toDigits 16 c.toNat) ++ "\x7d"

/-- A character in single quotes. -/
def quotedChar (c : Char) : String :=
  "'" ++ escaped '\'' c ++ "'"

/-- A text in double quotes. -/
def quoted (text : String) : String :=
  "\"" ++ String.join (text.toList.map (escaped '"')) ++ "\""

end RowIndex.Text
