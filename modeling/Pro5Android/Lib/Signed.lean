import Mathlib.Algebra.Group.Int.Defs
import Mathlib.Data.Int.Order.Basic
import Mathlib.Tactic.SplitIfs

/-!
# Signed arithmetic of 32 bits

An operation of `int` whose exact result leaves the range of the type is undefined. A
program that uses such operations is a computation in `Option`, where `none` is an
overflow or a division by zero; it returns `some` exactly if every intermediate fits.

Results:
* `int32_eq_some`, `div32_eq_some`: when an operation is defined, and its value.
* `div32_of_pos`: division by a positive number is defined.
* `tdiv_mem`: the bounds of a quotient.
-/

namespace Pro5Android.Lib

/-- A value of `int`. -/
def IsInt32 (n : ℤ) : Prop := -2 ^ 31 ≤ n ∧ n < 2 ^ 31

instance (n : ℤ) : Decidable (IsInt32 n) := inferInstanceAs (Decidable (_ ∧ _))

/-- The result of an operation of `int`. -/
def int32 (n : ℤ) : Option ℤ := if IsInt32 n then some n else none

/-- Division of `int`, towards zero. -/
def div32 (a b : ℤ) : Option ℤ := if b = 0 then none else int32 (a.tdiv b)

section

variable {a b m n : ℤ}

theorem int32_of_fits (h : IsInt32 n) : int32 n = some n := if_pos h

theorem int32_of_not_fits (h : ¬ IsInt32 n) : int32 n = none := if_neg h

theorem int32_eq_some : int32 n = some m ↔ IsInt32 n ∧ m = n := by
  by_cases h : IsInt32 n
  · rw [int32_of_fits h, Option.some.injEq, eq_comm]
    exact (and_iff_right h).symm
  · rw [int32_of_not_fits h]
    exact iff_of_false (Option.some_ne_none m).symm fun hm => h hm.1

theorem div32_eq_some : div32 a b = some m ↔ b ≠ 0 ∧ IsInt32 (a.tdiv b) ∧ m = a.tdiv b := by
  unfold div32
  by_cases h : b = 0
  · rw [if_pos h]
    exact iff_of_false (Option.some_ne_none m).symm fun hm => hm.1 h
  · rw [if_neg h, int32_eq_some]
    exact (and_iff_right h).symm

/-- Division by a positive number keeps the range. -/
theorem IsInt32.tdiv (ha : IsInt32 a) (hb : 0 < b) : IsInt32 (a.tdiv b) := by
  unfold IsInt32 at ha ⊢
  have habs := Int.natAbs_tdiv_le_natAbs a b
  have hsign : a ≤ 0 → a.tdiv b ≤ 0 := by
    intro h
    have hle := Int.tdiv_le_tdiv hb h
    rwa [Int.zero_tdiv] at hle
  omega

/-- Division by a positive number is defined. -/
theorem div32_of_pos (ha : IsInt32 a) (hb : 0 < b) : div32 a b = some (a.tdiv b) :=
  div32_eq_some.mpr ⟨Int.ne_of_gt hb, ha.tdiv hb, rfl⟩

/-- The bounds of a quotient. -/
theorem tdiv_mem (hb : 0 < b) (h0 : 0 ≤ a) (h : a ≤ n * b) : 0 ≤ a.tdiv b ∧ a.tdiv b ≤ n := by
  refine ⟨Int.tdiv_nonneg h0 (Int.le_of_lt hb), ?_⟩
  have hle := Int.tdiv_le_tdiv hb h
  rwa [Int.mul_tdiv_cancel _ (Int.ne_of_gt hb)] at hle

end

end Pro5Android.Lib
