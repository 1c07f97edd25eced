/-!
# Text/Blank — white space, and text without it at either end

Blank characters are those with the Unicode property `White_Space`: the line and space characters
of ASCII, the two Latin-1 blanks, and the spaces and separators of general punctuation.  The zero
width spaces are not among them.  Trimming takes blanks away (`exists_trimBlanks`), and all those
around a text that holds none (`trimBlanks_append`).
-/

namespace RowIndex.Text

/-- The Unicode property `White_Space`. -/
def isBlank (c : Char) : Bool :=
  let code := c.toNat
  (0x9 ≤ code && code ≤ 0xD) || code == 0x20 || code == 0x85 || code == 0xA0 || code == 0x1680 ||
    (0x2000 ≤ code && code ≤ 0x200A) || code == 0x2028 || code == 0x2029 || code == 0x202F ||
    code == 0x205F || code == 0x3000

/-- Drop the blanks at both ends of a list of characters. -/
def trimBlanks (text : List Char) : List Char :=
  ((text.dropWhile isBlank).reverse.dropWhile isBlank).reverse

/-- The text between its first and its last character that is not blank. -/
def trim (text : String) : String :=
  String.ofList (trimBlanks text.toList)

/-- Trimming takes nothing but blanks. -/
theorem exists_trimBlanks (text : List Char) :
    ∃ before after, (∀ c ∈ before, isBlank c = true) ∧ (∀ c ∈ after, isBlank c = true) ∧
      text = before ++ trimBlanks text ++ after := by
  have htaken {l : List Char} : ∀ c ∈ l.takeWhile isBlank, isBlank c = true :=
    List.all_eq_true.mp List.all_takeWhile
  let rest := text.dropWhile isBlank
  refine ⟨text.takeWhile isBlank, (rest.reverse.takeWhile isBlank).reverse, htaken,
    fun c hc => htaken c (List.mem_reverse.mp hc), ?_⟩
  have hrest : rest = trimBlanks text ++ (rest.reverse.takeWhile isBlank).reverse := by
    rw [trimBlanks, ← List.reverse_append, List.takeWhile_append_dropWhile, List.reverse_reverse]
  rw [List.append_assoc, ← hrest, List.takeWhile_append_dropWhile]

/-- The visible characters of ASCII are no blanks. -/
theorem isBlank_of_visible {c : Char} (hlow : 0x20 < c.toNat) (hhigh : c.toNat < 0x7F) :
    isBlank c = false := by
  refine Bool.eq_false_iff.mpr fun hblank => ?_
  simp only [isBlank, Bool.or_eq_true, Bool.and_eq_true, decide_eq_true_eq, beq_iff_eq] at hblank
  omega

/-- A text without blanks is what trimming leaves of it with blanks around. -/
theorem trimBlanks_append {before text after : List Char} (hbefore : ∀ c ∈ before, isBlank c = true)
    (htext : ∀ c ∈ text, isBlank c = false) (hafter : ∀ c ∈ after, isBlank c = true) :
    trimBlanks (before ++ text ++ after) = text := by
  have hkept {l : List Char} (hl : ∀ c ∈ l, isBlank c = false) : l.dropWhile isBlank = l := by
    cases l with
    | nil => rfl
    | cons c l => rw [List.dropWhile_cons, hl c List.mem_cons_self, if_neg Bool.false_ne_true]
  have hreversed : ∀ c ∈ after.reverse, isBlank c = true := fun c hc =>
    hafter c (List.mem_reverse.mp hc)
  rw [trimBlanks, List.append_assoc, List.dropWhile_append_of_pos hbefore]
  cases text with
  | nil =>
    have hnone : after.dropWhile isBlank = [] := by
      rw [← List.append_nil after, List.dropWhile_append_of_pos hafter]
      rfl
    rw [List.nil_append, hnone]
    rfl
  | cons c text =>
    rw [List.cons_append, List.dropWhile_cons, htext c List.mem_cons_self,
      if_neg Bool.false_ne_true, ← List.cons_append, List.reverse_append,
      List.dropWhile_append_of_pos hreversed, hkept fun d hd => htext d (List.mem_reverse.mp hd),
      List.reverse_reverse]

end RowIndex.Text
