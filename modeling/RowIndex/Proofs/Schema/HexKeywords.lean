import RowIndex.Proofs.Bytes.HexText
import RowIndex.Proofs.Schema.Readings

/-!
# Proofs/Schema/HexKeywords — one keyword for one byte string

    blanks  mark  digits  blanks
              │      │
              └──────┴──▸ byte string ──encode──▸ keyword

A byte string may be written in digits of either case, behind a mark of hexadecimal numbers, between
blanks.  However it is written, the digits are what is left of the text without its blanks and its
mark (`Mapper.marks_iff`), so the keyword depends on the byte string alone, and may be read again
with or without a mark, whether or not it is checked (`Mapper.hex_keywords_canonical`).
-/

namespace RowIndex

namespace Hex

/-- A digit is no blank. -/
theorem IsDigit.isBlank_eq {c : Char} (h : IsDigit c) : Text.isBlank c = false := by
  rw [isDigit_iff_toNat] at h
  exact Text.isBlank_of_visible (by omega) (by omega)

theorem toList_encode (bytes : Bytes) : (encode bytes).toList = encodeChars bytes :=
  String.toList_ofList

/-- Hexadecimal text is an even number of digits. -/
theorem digits_encodeChars (bytes : Bytes) : Digits (encodeChars bytes) := by
  have h := exists_decode_iff.mp ⟨bytes, decode_encode bytes⟩
  rwa [toList_encode] at h

/-- Hexadecimal text is in lower case. -/
theorem map_toLower_encodeChars (bytes : Bytes) :
    (encodeChars bytes).map Char.toLower = encodeChars bytes := by
  have h := decode_eq_ok_iff.mp (decode_encode bytes)
  rwa [toList_encode] at h

end Hex

namespace Mapper

/-! ## Texts around digits -/

/-- The marks that a hexadecimal number may bear. -/
def hexMarks : List String := ["", "0x", "0X"]

/-- A text that holds characters behind an optional mark, between blanks. -/
def Marks (text : String) (digits : List Char) : Prop :=
  ∃ before after, (∀ c ∈ before, Text.isBlank c = true) ∧ (∀ c ∈ after, Text.isBlank c = true) ∧
    ∃ mark ∈ hexMarks, text.toList = before ++ (mark.toList ++ digits) ++ after

/-- Nothing but a mark is dropped. -/
theorem exists_hexMark (text : List Char) :
    ∃ mark ∈ hexMarks, text = mark.toList ++ dropHexMark text := by
  unfold dropHexMark
  split
  · exact ⟨"0x", by decide, rfl⟩
  · exact ⟨"0X", by decide, rfl⟩
  · exact ⟨"", by decide, rfl⟩

/-- Digits are not taken for a mark. -/
theorem dropHexMark_eq {digits : List Char} (h : ∀ c ∈ digits, Hex.IsDigit c) :
    dropHexMark digits = digits := by
  unfold dropHexMark
  split
  · exact absurd (h 'x' (by simp)) (by decide)
  · exact absurd (h 'X' (by simp)) (by decide)
  · rfl

/-- The mark before digits is dropped. -/
theorem dropHexMark_append {mark : String} (hmark : mark ∈ hexMarks) {digits : List Char}
    (h : ∀ c ∈ digits, Hex.IsDigit c) : dropHexMark (mark.toList ++ digits) = digits := by
  simp only [hexMarks, List.mem_cons, List.not_mem_nil, or_false] at hmark
  rcases hmark with rfl | rfl | rfl
  · exact dropHexMark_eq h
  · rfl
  · rfl

/-- A marked number holds no blank. -/
theorem isBlank_eq_of_mem {mark : String} (hmark : mark ∈ hexMarks) {digits : List Char}
    (h : ∀ c ∈ digits, Hex.IsDigit c) : ∀ c ∈ mark.toList ++ digits, Text.isBlank c = false := by
  have hmarks : ∀ mark ∈ hexMarks, (mark.toList.all fun c => !Text.isBlank c) = true := by decide
  intro c hc
  rcases List.mem_append.mp hc with hc | hc
  · simpa using List.all_eq_true.mp (hmarks mark hmark) c hc
  · exact (h c hc).isBlank_eq

/-- **The digits of a text are what is left without its blanks and its mark.** -/
theorem marks_iff {text : String} {digits : List Char} (h : ∀ c ∈ digits, Hex.IsDigit c) :
    Marks text digits ↔ dropHexMark (Text.trim text).toList = digits := by
  rw [Text.trim, String.toList_ofList]
  constructor
  · rintro ⟨before, after, hbefore, hafter, mark, hmark, htext⟩
    rw [htext, Text.trimBlanks_append hbefore (isBlank_eq_of_mem hmark h) hafter,
      dropHexMark_append hmark h]
  · rintro rfl
    obtain ⟨before, after, hbefore, hafter, htext⟩ := Text.exists_trimBlanks text.toList
    obtain ⟨mark, hmark, hmarked⟩ := exists_hexMark (Text.trimBlanks text.toList)
    exact ⟨before, after, hbefore, hafter, mark, hmark, hmarked ▸ htext⟩

/-! ## Byte strings in texts -/

/-- A text is read as the byte string that its digits spell. -/
theorem readBytes_text_eq_ok_iff {field text : String} {bytes : Bytes} :
    readBytes field (.text text) = .ok bytes ↔
      (dropHexMark (Text.trim text).toList).map Char.toLower = Hex.encodeChars bytes := by
  have hdecode :=
    @Hex.decode_eq_ok_iff (String.ofList (dropHexMark (Text.trim text).toList)) bytes
  rw [String.toList_ofList] at hdecode
  rw [← hdecode]
  unfold readBytes
  dsimp only
  split <;> simp [*]

/-- **A text is read as a byte string exactly if it holds its digits in some mixture of cases.** -/
theorem readBytes_text_iff_marks {field text : String} {bytes : Bytes} :
    readBytes field (.text text) = .ok bytes ↔
      ∃ digits, Marks text digits ∧ digits.map Char.toLower = Hex.encodeChars bytes := by
  rw [readBytes_text_eq_ok_iff]
  constructor
  · intro h
    exact ⟨_, (marks_iff (Hex.digits_of_map_toLower h).2).mpr rfl, h⟩
  · rintro ⟨digits, hmarks, h⟩
    rwa [(marks_iff (Hex.digits_of_map_toLower h).2).mp hmarks]

/-! ## Keywords -/

/-- A value is mapped to the hexadecimal text of the byte string that it is read as. -/
theorem coerce_eq_ok_iff {m : Mapper} (hm : m.type = .blob) {field : String} {raw : Value}
    {v : FieldValue} : m.coerce field raw = .ok v ↔
      ∃ bytes, readBytes field raw = .ok bytes ∧ .keyword (Hex.encode bytes) = v := by
  simp only [coerce, hm, map_eq_ok_iff]

/-- A value has the keyword of the byte string that it is read as, and of no other. -/
theorem coerce_eq_keyword_iff {m : Mapper} (hm : m.type = .blob) {field : String} {raw : Value}
    {bytes : Bytes} : m.coerce field raw = .ok (.keyword (Hex.encode bytes)) ↔
      readBytes field raw = .ok bytes := by
  simp only [coerce_eq_ok_iff hm, FieldValue.keyword.injEq, Hex.encode_inj, exists_eq_right]

/-- **Checked, a marked number is its digits.** -/
theorem coerce_marked {m : Mapper} (hm : m.type = .blob) {field : String} {mark : String}
    (hmark : mark ∈ hexMarks) {bytes : Bytes} :
    m.coerce field (.text (mark ++ Hex.encode bytes)) = .ok (.keyword (Hex.encode bytes)) := by
  refine (coerce_eq_keyword_iff hm).mpr (readBytes_text_iff_marks.mpr
    ⟨Hex.encodeChars bytes, ⟨[], [], nofun, nofun, mark, hmark, ?_⟩,
      Hex.map_toLower_encodeChars bytes⟩)
  rw [List.nil_append, List.append_nil, String.toList_append, Hex.toList_encode]

/-- A marked number in lower case is the number behind a mark in lower case. -/
theorem normalize_append_encode {mark : String} (hmark : mark ∈ hexMarks) (bytes : Bytes) :
    ∃ mark' ∈ hexMarks, normalize false (mark ++ Hex.encode bytes) =
      String.ofList (mark'.toList ++ Hex.encodeChars bytes) := by
  have hmarks : ∀ mark ∈ hexMarks, (mark.toList.all fun c => c.toNat < 0x80) = true ∧
      String.ofList (mark.toList.map Char.toLower) ∈ hexMarks := by decide
  obtain ⟨hascii, hlower⟩ := hmarks mark hmark
  refine ⟨_, hlower, ?_⟩
  have htext : (mark ++ Hex.encode bytes).toList = mark.toList ++ Hex.encodeChars bytes := by
    rw [String.toList_append, Hex.toList_encode]
  rw [normalize, if_neg Bool.false_ne_true, Text.toLower_of_ascii, htext, List.map_append,
    Hex.map_toLower_encodeChars, String.toList_ofList]
  intro c hc
  rcases List.mem_append.mp (htext ▸ hc) with hc | hc
  · simpa using List.all_eq_true.mp hascii c hc
  · exact ((Hex.digits_encodeChars bytes).2 c hc).toNat_lt

/-- **Unchecked, a marked number is its digits.** -/
theorem coerceTrusted_of_display {m : Mapper} (hm : m.type = .blob) {field : String} {raw : Value}
    {mark : String} (hmark : mark ∈ hexMarks) {bytes : Bytes}
    (hraw : raw.display = mark ++ Hex.encode bytes) :
    m.coerceTrusted field raw = .ok (.keyword (Hex.encode bytes)) := by
  obtain ⟨mark', hmark', hnormal⟩ := normalize_append_encode hmark bytes
  simp only [coerceTrusted, hm, hraw, hnormal, String.toList_ofList,
    dropHexMark_append hmark' (Hex.digits_encodeChars bytes).2]
  rfl

/-- **The keyword of a byte string does not depend on how it is written.**  A blob and every text of
its digits in some mixture of cases, behind an optional mark and between blanks, are mapped to its
hexadecimal text in lower case, and no other text is.  A text is accepted exactly if an even number
of digits is left of it without its blanks and one mark, and any other is refused by an error of
validation that names the field.  Different byte strings have different keywords, and a keyword is
mapped to itself, with or without a mark, whether or not it is checked. -/
theorem hex_keywords_canonical (boost : Single) (field : String) :
    let m : Mapper := { type := .blob, boost }
    (∀ bytes, m.coerce field (.blob bytes) = .ok (.keyword (Hex.encode bytes)) ∧
      m.coerceTrusted field (.blob bytes) = .ok (.keyword (Hex.encode bytes))) ∧
    (∀ text bytes, m.coerce field (.text text) = .ok (.keyword (Hex.encode bytes)) ↔
      ∃ digits, Marks text digits ∧ digits.map Char.toLower = Hex.encodeChars bytes) ∧
    (∀ text, ((∃ v, m.coerce field (.text text) = .ok v) ↔
        Hex.Digits (dropHexMark (Text.trim text).toList)) ∧
      ∀ e, m.coerce field (.text text) = .error e →
        e.kind = .validation ∧ e.field? = some field) ∧
    (∀ bytes bytes', m.coerce field (.blob bytes) = m.coerce field (.blob bytes') →
      bytes = bytes') ∧
    ∀ raw v, m.coerce field raw = .ok v → ∃ bytes, v = .keyword (Hex.encode bytes) ∧
      ∀ mark ∈ hexMarks, m.coerce field (.text (mark ++ Hex.encode bytes)) = .ok v ∧
        m.coerceTrusted field (.text (mark ++ Hex.encode bytes)) = .ok v := by
  intro m
  have hm : m.type = .blob := rfl
  refine ⟨fun bytes => ⟨rfl, ?_⟩, fun text bytes => ?_, fun text => ⟨?_, ?_⟩,
    fun bytes bytes' h => ?_, fun raw v h => ?_⟩
  · exact coerceTrusted_of_display hm (show "0x" ∈ hexMarks by decide) rfl
  · exact (coerce_eq_keyword_iff hm).trans readBytes_text_iff_marks
  · simp only [← Hex.exists_encodeChars_iff, ← @readBytes_text_eq_ok_iff field,
      coerce_eq_ok_iff hm]
    exact ⟨fun ⟨_, bytes, hread, _⟩ => ⟨bytes, hread⟩, fun ⟨bytes, hread⟩ => ⟨_, bytes, hread, rfl⟩⟩
  · exact (m.screens_coerce field (.text text)).unreadable rfl
  · exact Except.ok.inj ((coerce_eq_keyword_iff hm).mp h)
  · obtain ⟨bytes, -, rfl⟩ := (coerce_eq_ok_iff hm).mp h
    exact ⟨bytes, rfl, fun mark hmark =>
      ⟨coerce_marked hm hmark, coerceTrusted_of_display hm hmark rfl⟩⟩

/-- A marked number between blanks of two kinds is its digits; the same with two marks, with an odd
number of digits, or with a blank behind the mark is refused. -/
theorem hex_keywords_canonical_of_three_bytes :
    let m : Mapper := { type := .blob }
    m.coerce "data" (.text "\t0XDeAd0f\u2028") = .ok (.keyword (Hex.encode [0xde, 0xad, 0x0f])) ∧
      (∀ text ∈ ["0x0xdead0f", "0xdead0", "0x dead0f"],
        ¬∃ v, m.coerce "data" (.text text) = .ok v) ∧
      m.coerceTrusted "data" (.text "0Xdead0f") = .ok (.keyword "dead0f") := by
  intro m
  obtain ⟨hblob, htext, haccepted, -, hagain⟩ := hex_keywords_canonical Binary.one "data"
  refine ⟨?_, ?_, ?_⟩
  · exact (htext _ _).mpr ⟨"DeAd0f".toList,
      ⟨['\t'], ['\u2028'], List.forall_mem_singleton.mpr rfl, List.forall_mem_singleton.mpr rfl,
        "0X", by decide, by decide⟩, by decide⟩
  · have hleft : ∀ text ∈ ["0x0xdead0f", "0xdead0", "0x dead0f"],
        ¬Hex.Digits (dropHexMark (Text.trim text).toList) := by decide
    exact fun text htext hread => hleft text htext ((haccepted text).1.mp hread)
  · obtain ⟨bytes, hbytes, hmarks⟩ := hagain _ _ (hblob [0xde, 0xad, 0x0f]).1
    obtain rfl := Hex.encode_inj.mp (FieldValue.keyword.inj hbytes)
    exact (hmarks "0X" (by decide)).2

end Mapper

end RowIndex
