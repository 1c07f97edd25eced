import RowIndex.Text.Alphanumeric
import RowIndex.Text.LowerCase

/-!
# Text/Analysis — the tokens of a text

A token is a maximal run of alphanumeric characters, lower-cased; long runs are left out.  Two
analyzers share this rule and differ in two leaves: `analyze` keeps runs of up to 40 bytes and
lower-cases a run as a word, `analyzeIndexed`, the analyzer of the inverted index, keeps runs below
40 bytes and lower-cases each character on its own.
-/

namespace RowIndex.Text

/-- Split a list at every element that is not in the class; the pieces may be empty. -/
def split (inClass : Char → Bool) : List Char → List (List Char)
  | [] => [[]]
  | c :: rest =>
    if inClass c then
      match split inClass rest with
      | [] => [[c]]
      | piece :: pieces => (c :: piece) :: pieces
    else [] :: split inClass rest

/-- The maximal runs of alphanumeric characters, in order. -/
def words (text : List Char) : List (List Char) :=
  (split isAlphanumeric text).filter (!·.isEmpty)

/-- Length of a text in UTF-8. -/
def byteLength (text : List Char) : Nat :=
  text.foldr (fun c n => c.utf8Size + n) 0

/-- The longest token that is kept, in bytes. -/
def maxTokenLength : Nat := 40

/-- The tokens of `text`, in order. -/
def analyze (text : String) : List String :=
  ((words text.toList).filter (byteLength · ≤ maxTokenLength)).map
    fun word => String.ofList (lowerFrom [] word)

/-- The tokens of `text` as the inverted index finds them. -/
def analyzeIndexed (text : String) : List String :=
  ((words text.toList).filter (byteLength · < maxTokenLength)).map
    fun word => String.ofList (word.flatMap lowerChar)

end RowIndex.Text
