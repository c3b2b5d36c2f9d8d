import Mathlib.Algebra.Group.Int.Defs
import Mathlib.Tactic.Common

/-! # Signed 64-bit integers

Integers as a machine keeps them: every result is taken modulo `2 ^ 64` into the signed range. A
computation that stays in the range is not changed (**`int64_eq`**). -/

namespace Foundation

/-- The largest signed 64-bit integer. -/
def maxInt64 : Int := 2 ^ 63 - 1

/-- The integer a 64-bit machine keeps for `z`. -/
def int64 (z : Int) : Int := (z + 2 ^ 63) % 2 ^ 64 - 2 ^ 63

/-- The integers of 64 bits. -/
def InInt64 (z : Int) : Prop := -2 ^ 63 ≤ z ∧ z < 2 ^ 63

instance (z : Int) : Decidable (InInt64 z) := inferInstanceAs (Decidable (_ ∧ _))

theorem inInt64_int64 (z : Int) : InInt64 (int64 z) := by
  unfold InInt64 int64
  omega

/-- **An integer in the range is kept.** -/
theorem int64_eq {z : Int} (h : InInt64 z) : int64 z = z := by
  unfold InInt64 at h
  unfold int64
  omega

theorem inInt64_of_pos {z : Int} (hpos : 0 < z) (hle : z ≤ maxInt64) : InInt64 z := by
  unfold maxInt64 at hle
  exact ⟨by omega, by omega⟩

end Foundation
