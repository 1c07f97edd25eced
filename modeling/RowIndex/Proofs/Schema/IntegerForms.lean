import RowIndex.Proofs.Decimal.Numerals
import RowIndex.Proofs.Schema.IntegerRanges

/-!
# Proofs/Schema/IntegerForms — an integer is indexed the same in all its forms

    int, bigint, varint ────────────────────────▸ exact ──┐
    decimal, text ──trim──▸ numeral ──nearest──▸ rounded ─┼──▸ .long n or .double n
    double ──────────────────────────────────────▸ itself ┘

Integers are read exactly, while texts and decimals pass through floating-point numbers.  Up to
`2 ^ 53` these hold every integer, so that the ways meet: a mapper of 64-bit numbers gives all forms
of an integer one value (`Mapper.coerce_of_denotes`), and these values are in the order of the
integers (`Mapper.before_ofInteger_iff`).  What is stored in one form is found by any other, as a
term and within bounds (`Schema.integer_forms_indexed_alike`).
-/

namespace RowIndex

/-! ## Forms -/

/-- A text that holds a decimal numeral of an integer, between blanks. -/
def Text.Spells (n : Int) (text : String) : Prop :=
  ∃ before numeral after, (∀ c ∈ before, isBlank c = true) ∧ (∀ c ∈ after, isBlank c = true) ∧
    Numeral.Spells n numeral ∧ text.toList = before ++ numeral ++ after

/-- The forms of an integer: the integers of three widths as far as they reach, the double nearest
to it, and decimals and texts that spell it. -/
inductive Value.Denotes : Value → Int → Prop
  | int (n : Int32) : Denotes (.int n) n.toInt
  | bigInt (n : Int64) : Denotes (.bigInt n) n.toInt
  | varInt (n : Int128) : Denotes (.varInt n) n.val
  | double (n : Int) : Denotes (.double (Binary.ofInt n)) n
  | decimal {n : Int} {text : String} (h : Text.Spells n text) : Denotes (.decimal text) n
  | text {n : Int} {text : String} (h : Text.Spells n text) : Denotes (.text text) n

/-- A numeral holds no blank. -/
theorem Numeral.Spells.isBlank_eq {n : Int} {text : List Char} (h : Numeral.Spells n text) :
    ∀ c ∈ text, Text.isBlank c = false := by
  have hdigit {c : Char} (hc : c.isDigit = true) : Text.isBlank c = false := by
    have hbounds : 48 ≤ c.toNat ∧ c.toNat ≤ 57 := Char.isDigit_iff_toNat.mp hc
    exact Text.isBlank_of_visible (by omega) (by omega)
  intro c hc
  cases h with
  | plain _ hdigits => exact hdigit (hdigits c hc)
  | plus _ hdigits =>
    rcases List.mem_cons.mp hc with rfl | hc
    · rfl
    · exact hdigit (hdigits c hc)
  | minus hdigits _ =>
    rcases List.mem_cons.mp hc with rfl | hc
    · rfl
    · exact hdigit (hdigits c hc)

/-- The text of an integer spells it, with any blanks around. -/
theorem Text.spells_toString (n : Int) (before after : String)
    (hbefore : ∀ c ∈ before.toList, isBlank c = true)
    (hafter : ∀ c ∈ after.toList, isBlank c = true) : Spells n (before ++ toString n ++ after) :=
  ⟨_, _, _, hbefore, hafter, Numeral.spells_toString n, by simp⟩

/-- A text is read as the integer that it spells. -/
theorem Text.ofText?_trim {n : Int} {text : String} (h : Spells n text) (hn : n.natAbs ≤ 2 ^ 53) :
    Binary.ofText? (trim text) = some (Binary.ofInt n : Double) := by
  obtain ⟨before, numeral, after, hbefore, hafter, hnumeral, htext⟩ := h
  rw [trim, htext, trimBlanks_append hbefore hnumeral.isBlank_eq hafter]
  exact Binary.ofText?_of_spells (by decide) hnumeral hn

namespace Mapper

/-! ## Values -/

/-- The value of an integer in the field of a mapper of 64-bit numbers. -/
def ofInteger (m : Mapper) (n : Int) : FieldValue :=
  if m.type = .double then .double (Binary.ofInt n) else .long (Int64.ofInt n)

/-- **All forms of an integer are read as one number**, in 64 bits. -/
theorem exists_readNumber_of_denotes {raw : Value} {n : Int} (h : raw.Denotes n)
    (hn : n.natAbs ≤ 2 ^ 53) (field : String) (expected : Expectation) :
    ∃ x, readNumber field expected raw = .ok x ∧ x.toInt64 = Int64.ofInt n ∧
      x.toDouble = Binary.ofInt n := by
  have hcut : Number.toInt64 (.real (Binary.ofInt n)) = Int64.ofInt n := by
    rw [Number.toInt64, Binary.toIntBetween_ofInt (by decide) hn (by omega) (by omega)]
  cases h with
  | int | bigInt | varInt => exact ⟨_, rfl, rfl, rfl⟩
  | double => exact ⟨_, rfl, hcut, rfl⟩
  | decimal h | text h =>
    refine ⟨.real (Binary.ofInt n), ?_, hcut, rfl⟩
    rw [readNumber, Text.ofText?_trim h hn]

section Wide

variable {m : Mapper} (hwide : m.type = .long ∨ m.type = .double)

include hwide

/-- **A mapper of 64-bit numbers gives all forms of an integer one value.** -/
theorem coerce_of_denotes {raw : Value} {n : Int} (h : raw.Denotes n) (hn : n.natAbs ≤ 2 ^ 53)
    (field : String) : m.coerce field raw = .ok (m.ofInteger n) := by
  have hread (expected : Expectation) := exists_readNumber_of_denotes h hn field expected
  obtain ⟨type, boost⟩ := m
  rcases hwide with rfl | rfl
  · obtain ⟨x, hx, hint, -⟩ := hread .long
    exact map_eq_ok_iff.mpr ⟨x, hx, congrArg FieldValue.long hint⟩
  · obtain ⟨x, hx, -, hreal⟩ := hread .double
    exact map_eq_ok_iff.mpr ⟨x, hx, congrArg FieldValue.double hreal⟩

end Wide

theorem toInt_ofInt {n : Int} (hn : n.natAbs ≤ 2 ^ 53) : (Int64.ofInt n).toInt = n :=
  Int64.toInt_ofInt_of_le (by omega) (by omega)

variable {m : Mapper} {n k : Int} (hn : n.natAbs ≤ 2 ^ 53) (hk : k.natAbs ≤ 2 ^ 53)

include hn hk

/-- **The values of integers are in the order of the integers.** -/
theorem before_ofInteger_iff : (m.ofInteger n).Before (m.ofInteger k) ↔ n < k := by
  rw [ofInteger, ofInteger]
  split
  · exact FieldValue.before_double_iff.trans (Binary.rank_ofInt_lt_iff (by decide) hn hk)
  · rw [FieldValue.before_long_iff, toInt_ofInt hn, toInt_ofInt hk]

/-- Different integers have different values. -/
theorem ofInteger_inj : m.ofInteger n = m.ofInteger k ↔ n = k := by
  refine ⟨fun h => ?_, congrArg _⟩
  have hself : ¬(m.ofInteger k).Before (m.ofInteger k) := fun hv => Int.lt_irrefl k
    ((before_ofInteger_iff hk hk).mp hv)
  have hlt := before_ofInteger_iff (m := m) hn hk
  have hgt := before_ofInteger_iff (m := m) hk hn
  rw [h] at hlt hgt
  have hle := Int.not_lt.mp (mt hlt.mpr hself)
  have hge := Int.not_lt.mp (mt hgt.mpr hself)
  exact Int.le_antisymm hge hle

end Mapper

/-! ## Queries -/

namespace Schema

/-- Whether a value, if given, is a form of an integer up to `2 ^ 53`, which is given with it. -/
def Denotes : Option Value → Option Int → Prop :=
  Option.Rel fun raw n => raw.Denotes n ∧ n.natAbs ≤ 2 ^ 53

section Wide

variable {s : Schema} {t : Table} {field : String} {m : Mapper} (hm : s.mapper? field = some m)
  (hwide : m.type = .long ∨ m.type = .double)

include hwide

theorem exists_boundOf_of_denotes {value : Option Value} {bound : Option Int}
    (h : Denotes value bound) (field : String) (inclusive : Bool) :
    ∃ b, boundOf m field value inclusive = .ok b ∧ ∀ n : Int, n.natAbs ≤ 2 ^ 53 →
      (b.LiesBelow (m.ofInteger n) ↔ n ∈ integersAbove bound inclusive) ∧
      (b.LiesAbove (m.ofInteger n) ↔ n ∈ integersBelow bound inclusive) := by
  cases h with
  | none => exact ⟨.unbounded, rfl, fun n _ => ⟨Iff.rfl, Iff.rfl⟩⟩
  | some h =>
    obtain ⟨hform, hbound⟩ := h
    have hcoerce := Mapper.coerce_of_denotes hwide hform hbound field
    exact ⟨_, map_eq_ok_iff.mpr ⟨_, hcoerce, rfl⟩, fun n hn =>
      ⟨Bound.liesBelow_iff (Mapper.before_ofInteger_iff hbound hn)
          (Mapper.ofInteger_inj hbound hn),
        Bound.liesAbove_iff (Mapper.before_ofInteger_iff hn hbound)
          (Mapper.ofInteger_inj hn hbound)⟩⟩

section Stored

variable (hcolumn : (t.column? field).isSome = true) {r : Row} {d₀ d : Document}
  (hnew : d₀.values field = []) (hd : s.addFields d₀ t r = .ok d) {stored : Value} {n : Int}
  (hstored : r.value? field = some stored) (hform : stored.Denotes n) (hn : n.natAbs ≤ 2 ^ 53)

include hm hcolumn hnew hd hstored hform hn

/-- A form of an integer is stored as the value of the integer. -/
theorem mem_values_of_denotes {v : FieldValue} : v ∈ d.values field ↔ v = m.ofInteger n := by
  have hcoerce := Mapper.coerce_of_denotes hwide hform hn field
  rw [mem_values_of_addFields hd hm hnew, and_iff_right hcolumn, hstored]
  simp only [Option.some.injEq, exists_eq_left', hcoerce, Except.ok.injEq, eq_comm]

/-- **A form of an integer finds all forms of it**, and those of no other. -/
theorem isSome_score_termQuery_of_denotes {sought : Value} {k : Int} (hsought : sought.Denotes k)
    (hk : k.natAbs ≤ 2 ^ 53) :
    ∃ q, s.termQuery field sought = .ok q ∧ ((q.score d).isSome = true ↔ n = k) := by
  have hcoerce := Mapper.coerce_of_denotes hwide hsought hk field
  obtain ⟨q, hq⟩ := exists_termQuery hm hcoerce
  refine ⟨q, hq, ?_⟩
  rcases coerce_of_termQuery hm hq with ⟨words, hwords, -⟩ | ⟨v, hv, -, rfl⟩
  · have htext : m.ofInteger k = .text words := Except.ok.inj (hcoerce.symm.trans hwords)
    rw [Mapper.ofInteger] at htext
    split at htext <;> contradiction
  · obtain rfl := Except.ok.inj (hcoerce.symm.trans hv)
    change Query.finds d _ = true ↔ _
    rw [Query.finds_boosted, Query.finds_term_iff,
      mem_values_of_denotes hm hwide hcolumn hnew hd hstored hform hn, Mapper.ofInteger_inj hk hn,
      eq_comm]

/-- **Bounds in any form divide the stored integers as the integers.** -/
theorem isSome_score_rangeQuery_of_denotes {lower upper : Option Value} {l u : Option Int}
    (hlower : Denotes lower l) (hupper : Denotes upper u) (includeLower includeUpper : Bool) :
    ∃ q, s.rangeQuery field lower upper includeLower includeUpper = .ok q ∧
      ((q.score d).isSome = true ↔
        n ∈ integersAbove l includeLower ∩ integersBelow u includeUpper) := by
  obtain ⟨low, hlow, hbelow⟩ := exists_boundOf_of_denotes hwide hlower field includeLower
  obtain ⟨high, hhigh, habove⟩ := exists_boundOf_of_denotes hwide hupper field includeUpper
  refine ⟨_, rangeQuery_eq_ok hm hlow hhigh, ?_⟩
  change Query.finds d _ = true ↔ _
  rw [Query.finds_boosted, Query.finds_range_iff]
  simp only [mem_values_of_denotes hm hwide hcolumn hnew hd hstored hform hn, exists_eq_left,
    (hbelow n hn).1, (habove n hn).2, Set.mem_inter_iff]

end Stored

end Wide

/-- **A number is indexed the same however it is stored.**  Up to `2 ^ 53` a mapper of 64-bit
integers makes of every form of an integer that integer, and a mapper of 64-bit floating-point
numbers the one number of its value.  So what is sought in one form is found in every other: a term
finds the rows that store the integer, and a range those whose integer lies between its bounds. -/
theorem integer_forms_indexed_alike :
    (∀ (raw : Value) (n : Int) (field : String) (boost : Single), raw.Denotes n →
      n.natAbs ≤ 2 ^ 53 →
      Mapper.coerce ⟨.long, boost⟩ field raw = .ok (.long (Int64.ofInt n)) ∧
      (Int64.ofInt n).toInt = n ∧
      Mapper.coerce ⟨.double, boost⟩ field raw = .ok (.double (Binary.ofInt n)) ∧
      (Binary.ofInt n : Double).signedUnits = n * 2 ^ BinaryFormat.double.scale) ∧
    ∀ (s : Schema) (t : Table) (field : String) (m : Mapper), s.mapper? field = some m →
      m.type = .long ∨ m.type = .double → (t.column? field).isSome = true →
      ∀ (r : Row) (d₀ d : Document) (stored : Value) (n : Int), d₀.values field = [] →
        s.addFields d₀ t r = .ok d → r.value? field = some stored → stored.Denotes n →
        n.natAbs ≤ 2 ^ 53 →
        (∀ (sought : Value) (k : Int), sought.Denotes k → k.natAbs ≤ 2 ^ 53 →
          ∃ q, s.termQuery field sought = .ok q ∧ ((q.score d).isSome = true ↔ n = k)) ∧
        ∀ (lower upper : Option Value) (l u : Option Int) (includeLower includeUpper : Bool),
          Denotes lower l → Denotes upper u →
          ∃ q, s.rangeQuery field lower upper includeLower includeUpper = .ok q ∧
            ((q.score d).isSome = true ↔
              n ∈ integersAbove l includeLower ∩ integersBelow u includeUpper) := by
  constructor
  · intro raw n field boost hform hn
    exact ⟨Mapper.coerce_of_denotes (.inl rfl) hform hn field, Mapper.toInt_ofInt hn,
      Mapper.coerce_of_denotes (.inr rfl) hform hn field,
      Binary.signedUnits_ofInt (by decide) hn⟩
  · intro s t field m hm hwide hcolumn r d₀ d stored n hnew hd hstored hform hn
    refine ⟨fun sought k hsought hk => ?_, fun lower upper l u il iu hlower hupper => ?_⟩
    · exact isSome_score_termQuery_of_denotes hm hwide hcolumn hnew hd hstored hform hn hsought hk
    · exact isSome_score_rangeQuery_of_denotes hm hwide hcolumn hnew hd hstored hform hn hlower
        hupper il iu

/-- The least of these integers, kept as text in one column and as a wide integer in another, is
found by a double, and below a bound that is a decimal with a plus, but not above itself. -/
theorem integer_forms_indexed_alike_of_limits :
    let s : Schema := .ofList
      [⟨"n", { type := .long }⟩, ⟨"x", { type := .double, boost := Binary.ofInt 2 }⟩]
    let t : Table := ⟨"t", [⟨"n", .text⟩, ⟨"x", .varInt⟩]⟩
    let least : Value := .text " \n-9007199254740992 \n"
    let wide : Value := .varInt ⟨-9007199254740992, by decide, by decide⟩
    let r : Row := .ofCells (Partitioner.byteOrdered.place [1])
      [⟨"n", some least, 1⟩, ⟨"x", some wide, 1⟩]
    let d : Document :=
      ⟨[⟨"n", .long (-9007199254740992)⟩, ⟨"x", .double (Binary.ofInt (-2 ^ 53))⟩]⟩
    s.addFields {} t r = .ok d ∧
      (∃ q, s.termQuery "n" (.double (Binary.ofInt (-2 ^ 53))) = .ok q ∧
        (q.score d).isSome = true) ∧
      (∃ q, s.rangeQuery "x" none (some (.decimal "+7")) true false = .ok q ∧
        (q.score d).isSome = true) ∧
      ∃ q, s.rangeQuery "x" (some least) (some (.int 0)) false true = .ok q ∧
        ¬(q.score d).isSome = true := by
  intro s t least wide r d
  have hd : s.addFields {} t r = .ok d := by decide +kernel
  have hblank : ∀ c ∈ " \n".toList, Text.isBlank c = true :=
    List.forall_mem_cons.mpr ⟨rfl, List.forall_mem_singleton.mpr rfl⟩
  have hleast : least.Denotes (-2 ^ 53) := .text (Text.spells_toString (-2 ^ 53) " \n" " \n"
    hblank hblank)
  have hwide : wide.Denotes (-2 ^ 53) := .varInt _
  have hseven : Value.Denotes (.decimal "+7") 7 := .decimal ⟨[], _, [], by simp, by simp,
    .plus (List.cons_ne_nil '7' []) (List.forall_mem_singleton.mpr rfl), rfl⟩
  obtain ⟨-, hfound⟩ := integer_forms_indexed_alike
  obtain ⟨hterm, -⟩ := hfound s t "n" { type := .long } (by decide +kernel) (.inl rfl)
    (by decide +kernel) r {} d least (-2 ^ 53) rfl hd (by decide +kernel) hleast (by decide)
  obtain ⟨-, hrange⟩ := hfound s t "x" { type := .double, boost := Binary.ofInt 2 }
    (by decide +kernel) (.inr rfl) (by decide +kernel) r {} d wide (-2 ^ 53) rfl hd
    (by decide +kernel) hwide (by decide)
  obtain ⟨term, hq, hequal⟩ := hterm _ (-2 ^ 53) (.double _) (by decide)
  obtain ⟨below, hbelow, hless⟩ := hrange none (some (.decimal "+7")) none (some 7) true false
    .none (.some ⟨hseven, by decide⟩)
  obtain ⟨above, habove, hgreater⟩ := hrange (some least) (some (.int 0)) (some (-2 ^ 53)) (some 0)
    false true (.some ⟨hleast, by decide⟩) (.some ⟨.int 0, by decide⟩)
  refine ⟨hd, ⟨term, hq, hequal.mpr rfl⟩, ⟨below, hbelow, hless.mpr ⟨trivial, ?_⟩⟩, above, habove,
    fun h => Int.lt_irrefl _ (hgreater.mp h).1⟩
  change (-2 ^ 53 : Int) < 7
  decide

end Schema

end RowIndex
