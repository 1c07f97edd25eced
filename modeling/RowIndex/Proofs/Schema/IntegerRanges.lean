import Mathlib.Data.Set.Basic
import RowIndex.Proofs.Query.Meaning
import RowIndex.Proofs.Schema.Queries

/-!
# Proofs/Schema/IntegerRanges — ranges of integers are exact

An integer mapper takes the integers of its width as they are (`Mapper.coerce_of_integer?`), both
from the cell of a row and as the bounds of a range.  So a bound divides the stored integers where
it divides all integers (`Schema.exists_boundOf`), up to the ends of the width, and a range finds
the integers of an interval (`Schema.isSome_score_rangeQuery`).

    cell ──integer?──▸ n        n ∈ integersAbove lower ∩ integersBelow upper
      ╰───coerce────▸ .long n   between the bounds that coerce makes of lower and upper
-/

namespace RowIndex

/-! ## Intervals -/

/-- The integers above a lower bound; all integers if it is missing. -/
def integersAbove (lower : Option Int) (inclusive : Bool) : Set Int :=
  match lower with
  | none => Set.univ
  | some l => if inclusive then { n | l ≤ n } else { n | l < n }

/-- The integers below an upper bound; all integers if it is missing. -/
def integersBelow (upper : Option Int) (inclusive : Bool) : Set Int :=
  match upper with
  | none => Set.univ
  | some u => if inclusive then { n | n ≤ u } else { n | n < u }

theorem le_of_mem_integersAbove {l n : Int} {inclusive : Bool}
    (h : n ∈ integersAbove (some l) inclusive) : l ≤ n := by
  cases inclusive with
  | true => exact h
  | false => exact Int.le_of_lt h

theorem le_of_mem_integersBelow {u n : Int} {inclusive : Bool}
    (h : n ∈ integersBelow (some u) inclusive) : n ≤ u := by
  cases inclusive with
  | true => exact h
  | false => exact Int.le_of_lt h

/-- An interval whose bounds are inverted is empty. -/
theorem integersAbove_inter_eq_empty_of_lt {l u : Int} (h : u < l)
    (includeLower includeUpper : Bool) :
    integersAbove (some l) includeLower ∩ integersBelow (some u) includeUpper = ∅ :=
  Set.eq_empty_of_forall_notMem fun _ ⟨hl, hu⟩ =>
    Int.not_le.mpr h (Int.le_trans (le_of_mem_integersAbove hl) (le_of_mem_integersBelow hu))

/-! ## Integers -/

/-- The integer that an integer mapper takes as it is: one that fits its width. -/
def Mapper.integer? (m : Mapper) (raw : Value) : Option Int :=
  match m.type, raw with
  | .integer, .int n => some n.toInt
  | .long, .int n => some n.toInt
  | .long, .bigInt n => some n.toInt
  | _, _ => none

/-- **An integer mapper changes no integer of its width.** -/
theorem Mapper.coerce_of_integer? {m : Mapper} {raw : Value} {n : Int} (h : m.integer? raw = some n)
    (field : String) : ∃ k : Int64, m.coerce field raw = .ok (.long k) ∧ k.toInt = n := by
  obtain ⟨type, boost⟩ := m
  cases type <;> cases raw <;> cases h
  case integer.int n =>
    refine ⟨(Int32.ofInt n.toInt).toInt64, rfl, ?_⟩
    rw [Int32.ofInt_toInt, Int32.toInt_toInt64]
  case long.int n =>
    refine ⟨Int64.ofInt n.toInt, rfl, ?_⟩
    rw [Int64.ofInt_int32ToInt, Int32.toInt_toInt64]
  case long.bigInt n =>
    refine ⟨Int64.ofInt n.toInt, rfl, ?_⟩
    rw [Int64.ofInt_toInt]

namespace Bound

section Embedding

variable {v w : FieldValue} {n k : Int}

/-- A lower bound divides values as it divides integers, if they stand to it as integers do. -/
theorem liesBelow_iff (hlt : w.Before v ↔ k < n) (heq : w = v ↔ k = n) {inclusive : Bool} :
    (if inclusive then included w else excluded w).LiesBelow v ↔
      n ∈ integersAbove (some k) inclusive := by
  cases inclusive with
  | true =>
    rw [if_pos rfl, LiesBelow, hlt, heq, or_comm, ← Int.le_iff_lt_or_eq]
    rfl
  | false =>
    rw [if_neg Bool.false_ne_true, LiesBelow, hlt]
    rfl

/-- An upper bound divides values as it divides integers, if they stand to it as integers do. -/
theorem liesAbove_iff (hlt : v.Before w ↔ n < k) (heq : v = w ↔ n = k) {inclusive : Bool} :
    (if inclusive then included w else excluded w).LiesAbove v ↔
      n ∈ integersBelow (some k) inclusive := by
  cases inclusive with
  | true =>
    rw [if_pos rfl, LiesAbove, hlt, heq, or_comm, ← Int.le_iff_lt_or_eq]
    rfl
  | false =>
    rw [if_neg Bool.false_ne_true, LiesAbove, hlt]
    rfl

end Embedding

theorem long_eq_iff {k l : Int64} : FieldValue.long k = .long l ↔ k.toInt = l.toInt := by
  rw [FieldValue.long.injEq, ← Int64.toInt_inj]

theorem liesBelow_long_iff {k l : Int64} {inclusive : Bool} :
    (if inclusive then included (.long l) else excluded (.long l)).LiesBelow (.long k) ↔
      k.toInt ∈ integersAbove (some l.toInt) inclusive :=
  liesBelow_iff FieldValue.before_long_iff long_eq_iff

theorem liesAbove_long_iff {k u : Int64} {inclusive : Bool} :
    (if inclusive then included (.long u) else excluded (.long u)).LiesAbove (.long k) ↔
      k.toInt ∈ integersBelow (some u.toInt) inclusive :=
  liesAbove_iff FieldValue.before_long_iff long_eq_iff

end Bound

namespace Schema

/-- **A bound divides the stored integers where it divides all integers.** -/
theorem exists_boundOf {m : Mapper} {value : Option Value}
    (hvalue : ∀ raw ∈ value, (m.integer? raw).isSome = true) (field : String) (inclusive : Bool) :
    ∃ b, boundOf m field value inclusive = .ok b ∧ ∀ k : Int64,
      (b.LiesBelow (.long k) ↔ k.toInt ∈ integersAbove (value.bind m.integer?) inclusive) ∧
      (b.LiesAbove (.long k) ↔ k.toInt ∈ integersBelow (value.bind m.integer?) inclusive) := by
  cases value with
  | none => exact ⟨.unbounded, rfl, fun k => ⟨Iff.rfl, Iff.rfl⟩⟩
  | some raw =>
    obtain ⟨n, hn⟩ := Option.isSome_iff_exists.mp (hvalue raw rfl)
    obtain ⟨l, hl, rfl⟩ := Mapper.coerce_of_integer? hn field
    rw [Option.bind_some, hn]
    exact ⟨_, map_eq_ok_iff.mpr ⟨_, hl, rfl⟩,
      fun k => ⟨Bound.liesBelow_long_iff, Bound.liesAbove_long_iff⟩⟩

section Range

variable {s : Schema} {t : Table} {field : String} {m : Mapper} (hm : s.mapper? field = some m)
  (hkind : m.kind = .long) (hcolumn : (t.column? field).isSome = true)
  {lower upper : Option Value} (hlower : ∀ raw ∈ lower, (m.integer? raw).isSome = true)
  (hupper : ∀ raw ∈ upper, (m.integer? raw).isSome = true) (includeLower includeUpper : Bool)

include hm hkind hcolumn hlower hupper

/-- A range of integers finds the rows whose cell is read as an integer of the interval. -/
theorem exists_finds_rangeQuery_iff :
    ∃ q, s.rangeQuery field lower upper includeLower includeUpper = .ok q ∧
      ∀ {r : Row} {d₀ d : Document}, d₀.values field = [] → s.addFields d₀ t r = .ok d →
        (Query.finds d q = true ↔
          ∃ raw k, r.value? field = some raw ∧ m.coerce field raw = .ok (.long k) ∧
            k.toInt ∈ integersAbove (lower.bind m.integer?) includeLower ∩
              integersBelow (upper.bind m.integer?) includeUpper) := by
  obtain ⟨low, hlow, hbelow⟩ := exists_boundOf hlower field includeLower
  obtain ⟨high, hhigh, habove⟩ := exists_boundOf hupper field includeUpper
  refine ⟨_, rangeQuery_eq_ok hm hlow hhigh, fun {r d₀ d} hnew hd => ?_⟩
  rw [Query.finds_boosted, Query.finds_range_iff]
  constructor
  · rintro ⟨v, hv, hbounds⟩
    obtain ⟨-, raw, hraw, hcoerce⟩ := (mem_values_of_addFields hd hm hnew).mp hv
    have hlong := (Mapper.kind_coerce hcoerce).trans hkind
    cases v with
    | long k => exact ⟨raw, k, hraw, hcoerce, (hbelow k).1.mp hbounds.1, (habove k).2.mp hbounds.2⟩
    | double | keyword | text => contradiction
  · rintro ⟨raw, k, hraw, hcoerce, hl, hu⟩
    exact ⟨.long k, (mem_values_of_addFields hd hm hnew).mpr ⟨hcolumn, raw, hraw, hcoerce⟩,
      (hbelow k).1.mpr hl, (habove k).2.mpr hu⟩

/-- **Ranges of integers are exact.**  The kind tells the two integer mappers from the others.  For
bounds that are integers of the mapper's width there is a query, and it finds a row that stores such
an integer exactly if the integer lies in the interval of the bounds, over all integers.  It finds
no row without the cell, and no row at all if the interval is empty, as it is if the bounds are
inverted. -/
theorem isSome_score_rangeQuery :
    ∃ q, s.rangeQuery field lower upper includeLower includeUpper = .ok q ∧
      ∀ (r : Row) (d₀ d : Document), d₀.values field = [] → s.addFields d₀ t r = .ok d →
        let interval := integersAbove (lower.bind m.integer?) includeLower ∩
          integersBelow (upper.bind m.integer?) includeUpper
        (∀ n, (r.value? field).bind m.integer? = some n →
          ((q.score d).isSome = true ↔ n ∈ interval)) ∧
        (r.value? field = none → q.score d = none) ∧
        (interval = ∅ → q.score d = none) ∧
        ∀ l u, lower.bind m.integer? = some l → upper.bind m.integer? = some u → u < l →
          q.score d = none := by
  obtain ⟨q, hq, hfinds⟩ :=
    exists_finds_rangeQuery_iff hm hkind hcolumn hlower hupper includeLower includeUpper
  refine ⟨q, hq, fun r d₀ d hnew hd => ?_⟩
  have hfinds := hfinds hnew hd
  intro interval
  have hempty (h : interval = ∅) : q.score d = none := by
    rw [← Option.not_isSome_iff_eq_none]
    intro hfound
    obtain ⟨_, k, -, -, hk⟩ := hfinds.mp hfound
    exact Set.notMem_empty k.toInt (h ▸ hk)
  refine ⟨fun n hn => ?_, fun hnone => ?_, hempty, fun l u hl hu hlt => hempty ?_⟩
  · obtain ⟨raw, hraw, hn⟩ := Option.bind_eq_some_iff.mp hn
    obtain ⟨k, hcoerce, rfl⟩ := Mapper.coerce_of_integer? hn field
    refine hfinds.trans ⟨?_, fun hk => ⟨raw, k, hraw, hcoerce, hk⟩⟩
    rintro ⟨_, k', hraw', hcoerce', hk⟩
    obtain rfl := Option.some.inj (hraw.symm.trans hraw')
    cases hcoerce.symm.trans hcoerce'
    exact hk
  · rw [← Option.not_isSome_iff_eq_none]
    intro hfound
    obtain ⟨raw, _, hraw, -⟩ := hfinds.mp hfound
    exact Option.some_ne_none raw (hraw.symm.trans hnone)
  · change integersAbove _ _ ∩ integersBelow _ _ = ∅
    rw [hl, hu]
    exact integersAbove_inter_eq_empty_of_lt hlt includeLower includeUpper

omit hm hkind hcolumn hlower hupper

/-- The greatest integer is found where it is the lower bound, the least one where it is both
bounds, but nothing lies below the least. -/
theorem isSome_score_rangeQuery_of_limits :
    let s : Schema := .ofList
      [⟨"m", { type := .integer }⟩, ⟨"n", { type := .long, boost := Binary.ofInt 2 }⟩]
    let t : Table := ⟨"t", [⟨"m", .int⟩, ⟨"n", .bigInt⟩]⟩
    let least : Value := .int Int32.minValue
    let greatest : Value := .bigInt Int64.maxValue
    let r : Row := .ofCells (Partitioner.byteOrdered.place [1])
      [⟨"m", some least, 1⟩, ⟨"n", some greatest, 1⟩]
    let d : Document := ⟨[⟨"m", .long Int32.minValue.toInt64⟩, ⟨"n", .long Int64.maxValue⟩]⟩
    s.addFields {} t r = .ok d ∧
      (∃ q, s.rangeQuery "n" (some greatest) none true false = .ok q ∧
        (q.score d).isSome = true) ∧
      (∃ q, s.rangeQuery "m" (some least) (some least) true true = .ok q ∧
        (q.score d).isSome = true) ∧
      ∃ q, s.rangeQuery "m" none (some least) true false = .ok q ∧ ¬(q.score d).isSome = true := by
  intro s t least greatest r d
  have hd : s.addFields {} t r = .ok d := by decide +kernel
  have hm : s.mapper? "m" = some { type := .integer } := by decide +kernel
  have hn : s.mapper? "n" = some { type := .long, boost := Binary.ofInt 2 } := by decide +kernel
  have hleast : ∀ raw ∈ some least, (Mapper.integer? { type := .integer } raw).isSome = true :=
    fun raw h => Option.some.inj h ▸ rfl
  have hgreatest : ∀ raw ∈ some greatest,
      (Mapper.integer? { type := .long, boost := Binary.ofInt 2 } raw).isSome = true :=
    fun raw h => Option.some.inj h ▸ rfl
  have hopen (m : Mapper) : ∀ raw ∈ (none : Option Value), (m.integer? raw).isSome = true :=
    fun raw h => (Option.not_mem_none raw h).elim
  obtain ⟨above, habove, hgreat⟩ := isSome_score_rangeQuery (t := t) hn rfl (by decide +kernel)
    hgreatest (hopen _) true false
  obtain ⟨between, hbetween, hequal⟩ := isSome_score_rangeQuery (t := t) hm rfl (by decide +kernel)
    hleast hleast true true
  obtain ⟨below, hbelow, hless⟩ := isSome_score_rangeQuery (t := t) hm rfl (by decide +kernel)
    (hopen _) hleast true false
  refine ⟨hd, ⟨above, habove, ?_⟩, ⟨between, hbetween, ?_⟩, below, hbelow, ?_⟩
  · refine ((hgreat r {} d rfl hd).1 Int64.maxValue.toInt (by decide +kernel)).mpr ⟨?_, trivial⟩
    exact Int.le_refl _
  · refine ((hequal r {} d rfl hd).1 Int32.minValue.toInt (by decide +kernel)).mpr ⟨?_, ?_⟩
    · exact Int.le_refl _
    · exact Int.le_refl _
  · rw [(hless r {} d rfl hd).1 Int32.minValue.toInt (by decide +kernel)]
    exact fun h => Int.lt_irrefl _ h.2

end Range

end Schema

end RowIndex
