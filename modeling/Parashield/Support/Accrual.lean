import Mathlib.Algebra.Order.Field.Rat
import Mathlib.Data.Int.ConditionallyCompleteOrder
import Mathlib.Data.Rat.Cast.Order
import Mathlib.Order.Monotone.Basic
import Mathlib.Tactic.Ring

/-!
# Accrual

An amount that accrues evenly over a term, rounded down to whole units.  What
has not accrued yet falls from the whole amount to nothing, and is less than a
unit above its exact share.
-/

namespace Support

/-- The part of `x` that has accrued `t` into a term of length `total`. -/
def accrued (x : ℤ) (total t : ℕ) : ℤ :=
  x * (min t total : ℕ) / total

/-- The part of `x` still to accrue. -/
def unaccrued (x : ℤ) (total t : ℕ) : ℤ :=
  x - accrued x total t

variable {x : ℤ} {total t : ℕ}

theorem accrued_mono (hx : 0 ≤ x) (htotal : 0 < total) :
    Monotone (accrued x total) := by
  intro t t' hle
  have hmin : ((min t total : ℕ) : ℤ) ≤ (min t' total : ℕ) := by
    exact_mod_cast min_le_min_right total hle
  exact Int.ediv_le_ediv (by omega) (Int.mul_le_mul_of_nonneg_left hmin hx)

@[simp] theorem unaccrued_zero (x : ℤ) (total : ℕ) :
    unaccrued x total 0 = x := by
  simp [unaccrued, accrued]

theorem unaccrued_of_le (htotal : 0 < total) (h : total ≤ t) :
    unaccrued x total t = 0 := by
  rw [unaccrued, accrued, Nat.min_eq_right h,
    Int.mul_ediv_cancel x (by omega), sub_self]

theorem unaccrued_antitone (hx : 0 ≤ x) (htotal : 0 < total) :
    Antitone (unaccrued x total) := by
  intro t t' hle
  have hmono := accrued_mono hx htotal hle
  unfold unaccrued
  omega

/-- What is still to accrue, times the term, exceeds the amount times the
time left by less than the term. -/
theorem unaccrued_mul_bounds (htotal : 0 < total) (h : t ≤ total) :
    x * (total - t) ≤ unaccrued x total t * total ∧
      unaccrued x total t * total < x * (total - t) + total := by
  have hpos : (0 : ℤ) < total := by omega
  have hlow := Int.ediv_mul_le (x * t) hpos.ne'
  have hhigh := Int.lt_ediv_add_one_mul_self (x * t) hpos
  have hexpand : unaccrued x total t * total =
      x * total - x * t / total * total := by
    rw [unaccrued, accrued, Nat.min_eq_left h]
    ring
  rw [hexpand, mul_sub]
  rw [add_mul, one_mul] at hhigh
  omega

/-- What is still to accrue is the exact share, rounded up. -/
theorem unaccrued_sub_exact (htotal : 0 < total) (h : t ≤ total) :
    0 ≤ (unaccrued x total t : ℚ) - x * (total - t) / total ∧
      (unaccrued x total t : ℚ) - x * (total - t) / total < 1 := by
  obtain ⟨hlow, hhigh⟩ := unaccrued_mul_bounds (x := x) htotal h
  have hpos : (0 : ℚ) < total := by exact_mod_cast htotal
  constructor
  · rw [sub_nonneg, div_le_iff₀ hpos]
    exact_mod_cast hlow
  · rw [sub_lt_iff_lt_add', ← div_self hpos.ne', ← add_div,
      lt_div_iff₀ hpos]
    exact_mod_cast hhigh

end Support
