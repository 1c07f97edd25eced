import RowIndex.Token

/-!
# Proofs/Token/Order — tokens and keys are totally ordered

The order of tokens is total, and only equal tokens are equal in it.  Keys inherit both, so rows
have one order by key.
-/

namespace RowIndex

open Std

namespace Int128

instance : TransOrd Int128 where
  eq_swap := OrientedOrd.eq_swap (α := Int)
  isLE_trans := TransOrd.isLE_trans (α := Int)

instance : LawfulEqOrd Int128 where
  compare_self := ReflOrd.compare_self (α := Int)
  eq_of_compare h := val_inj (LawfulEqOrd.eq_of_compare h)

end Int128

namespace Token

instance : TransOrd Token where
  eq_swap {a b} := by
    cases a <;> cases b
    case murmur3.murmur3 => exact OrientedOrd.eq_swap (α := Int64)
    case random.random => exact OrientedOrd.eq_swap (α := Int128)
    case byteOrdered.byteOrdered => exact OrientedOrd.eq_swap (α := Bytes)
    -- Tokens of two partitioners are in the order of the partitioners.
    all_goals rfl
  isLE_trans {a b c} hab hbc := by
    cases a <;> cases b <;> cases c
    case murmur3.murmur3.murmur3 => exact TransOrd.isLE_trans (α := Int64) hab hbc
    case random.random.random => exact TransOrd.isLE_trans (α := Int128) hab hbc
    case byteOrdered.byteOrdered.byteOrdered => exact TransOrd.isLE_trans (α := Bytes) hab hbc
    all_goals first | rfl | contradiction

instance : LawfulEqOrd Token where
  compare_self {a} := by
    cases a with
    | murmur3 hash => exact ReflOrd.compare_self (α := Int64)
    | random hash => exact ReflOrd.compare_self (α := Int128)
    | byteOrdered bytes => exact ReflOrd.compare_self (α := Bytes)
  eq_of_compare {a b} h := by
    cases a <;> cases b
    case murmur3.murmur3 => exact congrArg _ (LawfulEqOrd.eq_of_compare (α := Int64) h)
    case random.random => exact congrArg _ (LawfulEqOrd.eq_of_compare (α := Int128) h)
    case byteOrdered.byteOrdered => exact congrArg _ (LawfulEqOrd.eq_of_compare (α := Bytes) h)
    all_goals contradiction

end Token

namespace Key

instance : TransOrd Key :=
  inferInstanceAs (TransCmp (compareLex (compareOn Key.token) (compareOn Key.bytes)))

instance : LawfulEqOrd Key where
  toReflCmp :=
    inferInstanceAs (ReflCmp (compareLex (compareOn Key.token) (compareOn Key.bytes)))
  eq_of_compare {a b} h := by
    obtain ⟨ht, hb⟩ := Ordering.then_eq_eq.mp h
    cases a
    cases b
    cases LawfulEqOrd.eq_of_compare ht
    cases LawfulEqOrd.eq_of_compare hb
    rfl

/-- Keys at different tokens are in the order of their tokens. -/
theorem compare_eq_lt {a b : Key} (hle : (compare a.token b.token).isLE = true)
    (hne : a.token ≠ b.token) : compare a b = .lt := by
  have hlt : compare a.token b.token = .lt := by
    cases h : compare a.token b.token with
    | lt => rfl
    | eq => exact (hne (LawfulEqOrd.eq_of_compare h)).elim
    | gt =>
      rw [h] at hle
      contradiction
  change (compare a.token b.token).then (compare a.bytes b.bytes) = .lt
  rw [hlt]
  rfl

end Key

end RowIndex
