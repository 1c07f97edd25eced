import RowIndex.Field

/-!
# Proofs/Field/ValueOrder — values of one kind are in a total order

Two values compare as equal exactly if they are the same (`compare?_eq_some_eq_iff`), and as less
exactly if one comes before the other (`compare?_eq_some_lt_iff`).  Values of one kind are ordered
transitively (`isLE_order_trans`); those of different kinds tie.
-/

namespace RowIndex

open Std

instance {F : BinaryFormat} : TransOrd (Binary F) where
  eq_swap := OrientedOrd.eq_swap (α := Int)
  isLE_trans := TransOrd.isLE_trans (α := Int)

instance {F : BinaryFormat} : LawfulEqOrd (Binary F) where
  compare_self := ReflOrd.compare_self (α := Int)
  eq_of_compare h := Binary.rank_inj (LawfulEqOrd.eq_of_compare (α := Int) h)

namespace FieldValue

/-- **Two values compare as equal exactly if they are the same.** -/
theorem compare?_eq_some_eq_iff {v w : FieldValue} : v.compare? w = some .eq ↔ v = w := by
  cases v <;> cases w <;> simp [compare?]

/-- One value comes before another: both are of one kind, and numbers stand by size, doubles in the
total order of their bit patterns, texts by code points. -/
inductive Before : FieldValue → FieldValue → Prop
  | long {m n : Int64} (h : m.toInt < n.toInt) : Before (.long m) (.long n)
  | double {x y : Double} (h : x.rank < y.rank) : Before (.double x) (.double y)
  | keyword {s t : String} (h : s < t) : Before (.keyword s) (.keyword t)
  | text {s t : String} (h : s < t) : Before (.text s) (.text t)

theorem before_long_iff {m n : Int64} : Before (.long m) (.long n) ↔ m.toInt < n.toInt :=
  ⟨fun h => by cases h; assumption, .long⟩

theorem before_double_iff {x y : Double} : Before (.double x) (.double y) ↔ x.rank < y.rank :=
  ⟨fun h => by cases h; assumption, .double⟩

/-- **Two values compare as less exactly if one comes before the other.** -/
theorem compare?_eq_some_lt_iff {v w : FieldValue} : v.compare? w = some .lt ↔ v.Before w := by
  constructor
  · intro h
    cases v <;> cases w <;> try contradiction
    all_goals replace h := Option.some.inj h
    case long.long m n => exact .long (Int64.lt_iff_toInt_lt.mp (compare_eq_lt.mp h))
    case double.double x y => exact .double (compare_eq_lt.mp h)
    case keyword.keyword s t => exact .keyword (compareOfLessAndEq_eq_lt.mp h)
    case text.text s t => exact .text (compareOfLessAndEq_eq_lt.mp h)
  · intro h
    cases h with
    | long h => exact congrArg some (compare_eq_lt.mpr (Int64.lt_iff_toInt_lt.mpr h))
    | double h => exact congrArg some (compare_eq_lt (α := Int).mpr h)
    | keyword h | text h => exact congrArg some (compareOfLessAndEq_eq_lt.mpr h)

theorem compare?_eq_some_gt_iff {v w : FieldValue} : v.compare? w = some .gt ↔ w.Before v := by
  rw [← compare?_eq_some_lt_iff]
  cases v <;> cases w <;> simp only [compare?, reduceCtorEq, Option.some.injEq]
  case long.long => exact OrientedCmp.gt_iff_lt
  case double.double => exact OrientedCmp.gt_iff_lt
  case keyword.keyword => exact OrientedCmp.gt_iff_lt
  case text.text => exact OrientedCmp.gt_iff_lt

/-- The order of two values; those of different kinds tie. -/
def order (v w : FieldValue) : Ordering := (v.compare? w).getD .eq

theorem swap_order (v w : FieldValue) : (v.order w).swap = w.order v := by
  cases v <;> cases w <;> try rfl
  case long.long => exact OrientedOrd.eq_swap.symm
  case double.double => exact OrientedOrd.eq_swap.symm
  case keyword.keyword => exact OrientedOrd.eq_swap.symm
  case text.text => exact OrientedOrd.eq_swap.symm

/-- Values of one kind tie exactly if they are the same. -/
theorem order_eq_eq_iff {v w : FieldValue} (h : v.kind = w.kind) : v.order w = .eq ↔ v = w := by
  cases v <;> cases w <;> try contradiction
  all_goals simp [order, compare?]

/-- **Values of one kind are ordered transitively.** -/
theorem isLE_order_trans {u v w : FieldValue} (huv : u.kind = v.kind) (hvw : v.kind = w.kind)
    (h : (u.order v).isLE = true) (h' : (v.order w).isLE = true) : (u.order w).isLE = true := by
  cases u <;> cases v <;> try contradiction
  all_goals cases w <;> try contradiction
  case long.long.long => exact TransOrd.isLE_trans (α := Int64) h h'
  case double.double.double => exact TransOrd.isLE_trans (α := Double) h h'
  case keyword.keyword.keyword => exact TransOrd.isLE_trans (α := String) h h'
  case text.text.text => exact TransOrd.isLE_trans (α := String) h h'

end FieldValue

end RowIndex
