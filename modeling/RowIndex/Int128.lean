import RowIndex.Powers

/-!
# Int128 — integers of 128 bits

A wide integer is an integer with a proof that it lies in the range of 128-bit two's complement; no
operation wraps, since values of this width are only stored, compared and converted.
-/

namespace RowIndex

/-- A signed integer of 128 bits. -/
structure Int128 where
  /-- The integer. -/
  val : Int
  le_val : -2 ^ 127 ≤ val
  val_lt : val < 2 ^ 127
  deriving DecidableEq

namespace Int128

/-- The integer as a wide one, if it is in range. -/
def ofInt? (n : Int) : Option Int128 :=
  if h : -2 ^ 127 ≤ n ∧ n < 2 ^ 127 then some ⟨n, h.1, h.2⟩ else none

theorem ofInt?_val (n : Int128) : ofInt? n.val = some n := by
  rw [ofInt?, dif_pos ⟨n.le_val, n.val_lt⟩]

theorem val_inj {m n : Int128} (h : m.val = n.val) : m = n := by
  cases m; cases n; cases h; rfl

/-- The wide integer minus one. -/
def negOne : Int128 := ⟨-1, by decide, by decide⟩

/-- A natural number below `2^127`, by its remainder. -/
def ofNat (n : Nat) : Int128 :=
  ⟨(n % 2 ^ 127 : Nat), by omega, by
    have := Nat.mod_lt n (Nat.two_pow_pos 127)
    omega⟩

instance : Ord Int128 where
  compare m n := compare m.val n.val

instance : ToString Int128 := ⟨fun n => toString n.val⟩

end Int128

end RowIndex
