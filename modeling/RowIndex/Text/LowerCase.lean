import RowIndex.Text.Casing

/-!
# Text/LowerCase — lower-case text, with the final form of sigma

Every character is lower-cased on its own except the capital sigma, which becomes `ς` at the end of
a word and `σ` elsewhere.  `lowerFrom_of_noSigma` isolates that one exception: text without a
capital sigma is lower-cased character by character, and text of ASCII as its letters are
(`toLower_of_ascii`).
-/

namespace RowIndex.Text

/-- Whether the first character that is not case-ignorable exists and is a cased letter. -/
def startsCased (text : List Char) : Bool :=
  match text.dropWhile caseIgnorables.contains with
  | [] => false
  | c :: _ => casedLetters.contains c

/-- Whether a sigma between `before` (nearest character first) and `after` ends a word. -/
def endsWord (before after : List Char) : Bool :=
  startsCased before && !startsCased after

/-- Lower-case `text`, given the characters before it, nearest first. -/
def lowerFrom (before : List Char) : List Char → List Char
  | [] => []
  | c :: after =>
    (if c = 'Σ' then [if endsWord before after then 'ς' else 'σ'] else lowerChar c) ++
      lowerFrom (c :: before) after

/-- The lower-case form of a text. -/
def toLower (text : String) : String :=
  String.ofList (lowerFrom [] text.toList)

/-- Without a capital sigma the context does not matter. -/
theorem lowerFrom_of_noSigma (before : List Char) :
    ∀ text : List Char, 'Σ' ∉ text → lowerFrom before text = text.flatMap lowerChar
  | [], _ => rfl
  | c :: text, h => by
    have hc : c ≠ 'Σ' := fun e => h (by simp [e])
    have ht : 'Σ' ∉ text := fun e => h (List.mem_cons_of_mem _ e)
    simp [lowerFrom, hc, lowerFrom_of_noSigma (c :: before) text ht]

/-- In ASCII nothing but the letters changes. -/
theorem toLower_of_ascii {text : String} (h : ∀ c ∈ text.toList, c.toNat < 0x80) :
    toLower text = String.ofList (text.toList.map Char.toLower) := by
  have hsigma : 'Σ' ∉ text.toList := fun hmem => by
    have hlt := h _ hmem
    contradiction
  have hlower : text.toList.flatMap lowerChar = text.toList.flatMap fun c => [c.toLower] := by
    rw [List.flatMap_def, List.flatMap_def]
    refine congrArg _ (List.map_congr_left fun c hc => ?_)
    rw [lowerChar, if_pos (h c hc)]
  rw [toLower, lowerFrom_of_noSigma [] _ hsigma, hlower, ← List.map_eq_flatMap]

end RowIndex.Text
