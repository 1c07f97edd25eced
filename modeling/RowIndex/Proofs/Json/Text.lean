import RowIndex.Proofs.Json.Numbers

/-!
# Proofs/Json/Text — every tree is read back from its text

    tree ──print──▸ text ──read──▸ tree

Characters are read back one by one, those that are escaped by their number as code units that never
pair up (`readString?_print`).  A value, a list of items and a list of members are read back up to
what follows them, by one induction over the tree (`readValue?_print`); the fuel that a text has by
its length is enough.  So a tree is what its text says, whatever it holds (`ofText?_toText`).
-/

namespace RowIndex.Json

/-! ## Strings -/

/-- What a printed character is read as. -/
def pieceOf (c : Char) : Piece :=
  if c = '"' ∨ c = '\\' ∨ c = '\n' ∨ c = '\t' ∨ c = '\r' ∨ c = '\x08' ∨ c = '\x0c' then
    .char c
  else if c.toNat < 32 then .unit c.toNat
  else .char c

theorem hexValue?_control {n : Nat} (h : n < 32) :
    hexValue? ['0', '0', Nat.digitChar (n / 16), Nat.digitChar (n % 16)] = some n := by
  have : ∀ i : Fin 32,
      hexValue? ['0', '0', Nat.digitChar (i.val / 16), Nat.digitChar (i.val % 16)] =
        some i.val := by decide
  exact this ⟨n, h⟩

/-- **A printed character is read as one piece.** -/
theorem readPieces?_printChar (c : Char) (rest : List Char) :
    readPieces? (printChar c ++ rest) =
      (readPieces? rest).map fun (pieces, rest) => (pieceOf c :: pieces, rest) := by
  by_cases hshort :
      c = '"' ∨ c = '\\' ∨ c = '\n' ∨ c = '\t' ∨ c = '\r' ∨ c = '\x08' ∨ c = '\x0c'
  · rw [pieceOf, if_pos hshort]
    rcases hshort with rfl | rfl | rfl | rfl | rfl | rfl | rfl <;>
      cases h : readPieces? rest <;> simp [printChar, readPieces?, unescape?, h]
  · rw [pieceOf, if_neg hshort]
    simp only [not_or] at hshort
    obtain ⟨hquote, hbackslash, hn, ht, hr, hb, hf⟩ := hshort
    simp only [printChar, hquote, hbackslash, hn, ht, hr, hb, hf, if_false]
    split
    · rename_i hcontrol
      simp only [List.cons_append, List.nil_append, readPieces?, hexValue?_control hcontrol]
      cases readPieces? rest <;> rfl
    · rename_i hplain
      rw [List.singleton_append, readPieces?]
      · rw [if_neg (by simp [hbackslash, hplain])]
        cases readPieces? rest <;> rfl
      · exact hquote
      · exact fun _ _ _ _ _ h => absurd h hbackslash
      · exact fun _ _ h => absurd h hbackslash

/-- A code unit below the surrogates stands for itself, whatever follows. -/
theorem join?_unit {n : Nat} (h : n < 32) (pieces : List Piece) :
    join? (.unit n :: pieces) = (join? pieces).map (Char.ofNat n :: ·) := by
  have hlead : isLead n = false := by simp [isLead]; omega
  have htrail : isTrail n = false := by simp [isTrail]; omega
  cases pieces with
  | nil => simp [join?, hlead, htrail]
  | cons p pieces => cases p <;> simp [join?, hlead, htrail]

theorem join?_map_pieceOf (text : List Char) : join? (text.map pieceOf) = some text := by
  induction text with
  | nil => rfl
  | cons c text ih =>
    have hchar : join? (.char c :: text.map pieceOf) = some (c :: text) := by
      rw [join?, ih]
      rfl
    rw [List.map_cons, pieceOf]
    split
    · exact hchar
    · split
      · rename_i hcontrol
        rw [join?_unit hcontrol, ih, Option.map_some, Char.ofNat_toNat]
      · exact hchar

theorem readPieces?_flatMap (text rest : List Char) :
    readPieces? (text.flatMap printChar ++ '"' :: rest) = some (text.map pieceOf, rest) := by
  induction text with
  | nil => rfl
  | cons c text ih => rw [List.flatMap_cons, List.append_assoc, readPieces?_printChar, ih]; rfl

/-- **A printed string is a quote and what is read back as the string**, also one that is no
text. -/
theorem exists_printString (text : Option String) :
    ∃ body, printString text = '"' :: body ∧
      ∀ rest, readString? (body ++ rest) = some (text, rest) := by
  cases text with
  | none =>
    refine ⟨['\\', 'u', 'd', '8', '0', '0', '"'], rfl, fun rest => ?_⟩
    have hunit : hexValue? ['d', '8', '0', '0'] = some 0xD800 := by decide
    have hjoin : join? [.unit 0xD800] = none := by decide
    simp [readString?, readPieces?, hunit, hjoin]
  | some text =>
    refine ⟨text.toList.flatMap printChar ++ ['"'], rfl, fun rest => ?_⟩
    rw [List.append_assoc, readString?, List.singleton_append, readPieces?_flatMap]
    simp only [Option.map_some, join?_map_pieceOf, String.ofList_toList]

/-! ## Values -/

theorem skipBlanks_cons {c : Char} (h : isBlank c = false) (text : List Char) :
    skipBlanks (c :: text) = c :: text :=
  List.dropWhile_cons_of_neg (by simp [h])

theorem endsNumber_nil : EndsNumber [] := nofun

theorem endsNumber_cons {c : Char} (h : c = ',' ∨ c = ']' ∨ c = '\x7d') (text : List Char) :
    EndsNumber (c :: text) := by
  intro d hd
  obtain rfl := Option.some.inj hd
  rcases h with rfl | rfl | rfl <;> decide

/-- No printed value starts with a blank or with the end of an array. -/
theorem exists_print_eq_cons (j : Json) :
    ∃ c text, print j = c :: text ∧ isBlank c = false ∧ c ≠ ']' := by
  cases j with
  | null => exact ⟨'n', _, rfl, by decide, by decide⟩
  | bool flag =>
    cases flag with
    | true => exact ⟨'t', _, rfl, by decide, by decide⟩
    | false => exact ⟨'f', _, rfl, by decide, by decide⟩
  | number n =>
    obtain ⟨c, text, h, hc⟩ := exists_print_number_eq_cons n
    refine ⟨c, text, h, ?_, ?_⟩
    · rw [← Bool.not_eq_true]
      intro hblank
      simp only [isBlank, Bool.or_eq_true, decide_eq_true_eq] at hblank
      rcases hblank with ((rfl | rfl) | rfl) | rfl <;> exact absurd hc (by decide)
    · rintro rfl
      exact absurd hc (by decide)
  | string text =>
    obtain ⟨body, h, -⟩ := exists_printString text
    exact ⟨'"', body, h, by decide, by decide⟩
  | array items => exact ⟨'[', _, rfl, by decide, by decide⟩
  | object members => exact ⟨'\x7b', _, rfl, by decide, by decide⟩

/-- A number is read where no other value can start. -/
theorem readValue?_number (fuel : Nat) {c : Char} {text : List Char}
    (hc : c = '-' ∨ c.isDigit = true) :
    readValue? (fuel + 1) (c :: text) =
      (readNumber? (c :: text)).map fun (n, rest) => (number n, rest) := by
  have hne {d : Char} (hd : ¬(d = '-' ∨ d.isDigit = true)) : c ≠ d := by
    rintro rfl
    exact hd hc
  have hblank : isBlank c = false := by
    simp only [isBlank, decide_eq_false (hne (d := ' ') (by decide)),
      decide_eq_false (hne (d := '\n') (by decide)), decide_eq_false (hne (d := '\t') (by decide)),
      decide_eq_false (hne (d := '\r') (by decide)), Bool.or_false]
  rw [readValue?, skipBlanks_cons hblank]
  split <;> rename_i h <;> first | rfl | skip
  all_goals exact absurd (List.cons.inj h).1 (hne (by decide))

theorem exists_printItems_eq_cons (item : Json) (items : List Json) :
    ∃ c text, printItems (item :: items) = c :: text ∧ isBlank c = false ∧ c ≠ ']' := by
  obtain ⟨c, text, h, hc⟩ := exists_print_eq_cons item
  cases items with
  | nil => exact ⟨c, text, h, hc⟩
  | cons next items =>
    rw [printItems, h]
    · exact ⟨c, _, rfl, hc⟩
    · nofun

theorem exists_printMembers_eq_cons (name : Option String) (value : Json)
    (members : List (Option String × Json)) :
    ∃ text, printMembers ((name, value) :: members) = '"' :: text := by
  obtain ⟨body, h, -⟩ := exists_printString name
  cases members with
  | nil => exact ⟨_, by rw [printMembers, h]; rfl⟩
  | cons next members => exact ⟨_, by rw [printMembers, h]; rfl; nofun⟩

mutual

/-- **A printed value is read back**, if what follows cannot belong to it. -/
theorem readValue?_print : ∀ (j : Json) {fuel : Nat} {rest : List Char},
    (print j).length < fuel → EndsNumber rest →
      readValue? fuel (print j ++ rest) = some (j, rest)
  | j, 0, _, h, _ => absurd h (Nat.not_lt_zero _)
  | null, fuel + 1, rest, _, _ => by simp [print, readValue?, skipBlanks_cons, isBlank]
  | bool flag, fuel + 1, rest, _, _ => by
    cases flag <;> simp [print, readValue?, skipBlanks_cons, isBlank]
  | number n, fuel + 1, rest, _, hrest => by
    obtain ⟨c, text, h, hc⟩ := exists_print_number_eq_cons n
    have hread := readNumber?_print n hrest
    rw [h] at hread
    rw [print, h, List.cons_append, readValue?_number fuel hc, ← List.cons_append, hread]
    rfl
  | string text, fuel + 1, rest, _, _ => by
    obtain ⟨body, hbody, hread⟩ := exists_printString text
    rw [print, hbody, List.cons_append, readValue?, skipBlanks_cons (by decide)]
    simp only [hread, Option.map_some]
  | array [], fuel + 1, rest, _, _ => by
    simp [print, printItems, readValue?, skipBlanks_cons, isBlank]
  | array (item :: items), fuel + 1, rest, h, _ => by
    simp only [print, List.length_append, List.length_cons, List.length_nil] at h
    have hitems : readItems? fuel (printItems (item :: items) ++ ']' :: rest) = _ :=
      readItems?_print (item :: items) (List.cons_ne_nil _ _) (by omega)
    obtain ⟨c, text, hc, hblank, hend⟩ := exists_printItems_eq_cons item items
    rw [hc, List.cons_append] at hitems
    simp only [print, readValue?, hc, List.cons_append, List.append_assoc, List.nil_append,
      skipBlanks_cons (c := '[') (by decide), skipBlanks_cons hblank]
    split
    · rename_i heq
      exact absurd (List.cons.inj heq).1 hend
    · rw [hitems, Option.map_some]
  | object [], fuel + 1, rest, h, _ => by
    simp [print, printMembers, readValue?, skipBlanks_cons, isBlank]
  | object ((name, value) :: members), fuel + 1, rest, h, _ => by
    simp only [print, List.length_append, List.length_cons, List.length_nil] at h
    have hmembers : readMembers? fuel (printMembers ((name, value) :: members) ++
        '\x7d' :: rest) = _ :=
      readMembers?_print ((name, value) :: members) (List.cons_ne_nil _ _) (by omega)
    obtain ⟨text, hc⟩ := exists_printMembers_eq_cons name value members
    rw [hc, List.cons_append] at hmembers
    simp only [print, readValue?, hc, List.cons_append, List.append_assoc, List.nil_append,
      skipBlanks_cons (c := '\x7b') (by decide), skipBlanks_cons (c := '"') (by decide)]
    simp only [hmembers, Option.map_some]
    rfl

/-- Printed items are read back up to the end of their array. -/
theorem readItems?_print : ∀ (items : List Json) {fuel : Nat} {rest : List Char}, items ≠ [] →
    (printItems items).length + 1 < fuel →
      readItems? fuel (printItems items ++ ']' :: rest) = some (items, rest)
  | [], _, _, h, _ => (h rfl).elim
  | _, 0, _, _, h => absurd h (Nat.not_lt_zero _)
  | [item], fuel + 1, rest, _, h => by
    rw [printItems] at h ⊢
    have hitem : readValue? fuel (print item ++ ']' :: rest) = _ :=
      readValue?_print item (by omega) (endsNumber_cons (by decide) rest)
    simp [readItems?, hitem, skipBlanks_cons, isBlank]
  | item :: next :: items, fuel + 1, rest, _, h => by
    rw [printItems, List.length_append, List.length_cons] at h
    · have hitems : readItems? fuel (printItems (next :: items) ++ ']' :: rest) = _ :=
        readItems?_print (next :: items) (List.cons_ne_nil _ _) (by omega)
      have hitem : readValue? fuel (print item ++ ',' :: (printItems (next :: items) ++
          ']' :: rest)) = _ :=
        readValue?_print item (by omega) (endsNumber_cons (by decide) _)
      simp [printItems, readItems?, hitem, hitems, skipBlanks_cons, isBlank]
    · nofun

/-- Printed members are read back up to the end of their object. -/
theorem readMembers?_print : ∀ (members : List (Option String × Json)) {fuel : Nat}
    {rest : List Char}, members ≠ [] → (printMembers members).length + 1 < fuel →
      readMembers? fuel (printMembers members ++ '\x7d' :: rest) = some (members, rest)
  | [], _, _, h, _ => (h rfl).elim
  | _, 0, _, _, h => absurd h (Nat.not_lt_zero _)
  | [(name, value)], fuel + 1, rest, _, h => by
    obtain ⟨body, hbody, hread⟩ := exists_printString name
    simp only [printMembers, List.length_append, List.length_cons] at h
    have hvalue : readValue? fuel (print value ++ '\x7d' :: rest) = _ :=
      readValue?_print value (by omega) (endsNumber_cons (by decide) rest)
    simp [printMembers, readMembers?, hbody, hread, hvalue, skipBlanks_cons, isBlank]
  | (name, value) :: next :: members, fuel + 1, rest, _, h => by
    obtain ⟨body, hbody, hread⟩ := exists_printString name
    rw [printMembers] at h
    · simp only [List.length_append, List.length_cons] at h
      have hmembers : readMembers? fuel (printMembers (next :: members) ++ '\x7d' :: rest) = _ :=
        readMembers?_print (next :: members) (List.cons_ne_nil _ _) (by omega)
      have hvalue : readValue? fuel (print value ++ ',' :: (printMembers (next :: members) ++
          '\x7d' :: rest)) = _ :=
        readValue?_print value (by omega) (endsNumber_cons (by decide) _)
      simp [printMembers, readMembers?, hbody, hread, hvalue, hmembers, skipBlanks_cons, isBlank]
    · nofun

end

/-- **Every tree is read back from its text.** -/
theorem ofText?_toText (j : Json) : ofText? j.toText = some j := by
  have hread : readValue? ((print j).length + 1) (print j ++ []) = _ :=
    readValue?_print j (Nat.lt_succ_self _) endsNumber_nil
  rw [List.append_nil] at hread
  rw [ofText?, toText, String.toList_ofList]
  simp only [hread]
  rfl

end RowIndex.Json
