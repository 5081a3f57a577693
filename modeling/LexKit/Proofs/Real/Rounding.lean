import LexKit.Real.Binary
import Mathlib.Algebra.Order.Field.Power
import Mathlib.Algebra.Order.Ring.Rat
import Mathlib.Data.Rat.Cast.Order
import Mathlib.Tactic.FieldSimp
import Mathlib.Tactic.Linarith
import Mathlib.Tactic.Positivity
import Mathlib.Tactic.Ring

/-!
# Rounding of quotients

A rounded quotient is at most one half away from the quotient, and it is the quotient itself where
that is an integer.
-/

set_option autoImplicit false

namespace LexKit.Real

variable {numerator denominator : Nat}

theorem roundQuotient_exact (positive : 0 < denominator) (value : Nat) :
    roundQuotient (value * denominator) denominator = value := by
  simp [roundQuotient, Nat.mul_div_cancel _ positive, positive]

private theorem roundQuotient_bounds (positive : 0 < denominator) :
    2 * numerator ≤ 2 * (roundQuotient numerator denominator * denominator) + denominator ∧
      2 * (roundQuotient numerator denominator * denominator) ≤ 2 * numerator + denominator := by
  have parts := Nat.div_add_mod' numerator denominator
  have rest := Nat.mod_lt numerator positive
  unfold roundQuotient
  dsimp only
  by_cases below : 2 * (numerator % denominator) < denominator
  · rw [if_pos below]
    omega
  rw [if_neg below]
  by_cases above : 2 * (numerator % denominator) > denominator
  · rw [if_pos above, Nat.add_mul, Nat.one_mul]
    omega
  -- Halfway between two integers the even one may be on either side.
  rw [if_neg above, Nat.add_mul]
  rcases Nat.mod_two_eq_zero_or_one (numerator / denominator) with even | odd
  · rw [even, Nat.zero_mul]
    omega
  · rw [odd, Nat.one_mul]
    omega

/-- Rounding a quotient to an integer misses it by one half at most. This is all that the error
bounds of literals need to know of it. -/
theorem abs_roundQuotient_sub_le (positive : 0 < denominator) :
    |(roundQuotient numerator denominator : ℚ) - numerator / denominator| ≤ 1 / 2 := by
  obtain ⟨low, high⟩ := @roundQuotient_bounds numerator denominator positive
  have positive : (0 : ℚ) < denominator := by exact_mod_cast positive
  have low : 2 * (numerator : ℚ) ≤
      2 * (roundQuotient numerator denominator * denominator) + denominator := by
    exact_mod_cast low
  have high : 2 * ((roundQuotient numerator denominator : ℚ) * denominator) ≤
      2 * numerator + denominator := by
    exact_mod_cast high
  have above : (numerator : ℚ) / denominator ≤ roundQuotient numerator denominator + 1 / 2 := by
    rw [div_le_iff₀ positive]
    linarith
  have below : (roundQuotient numerator denominator : ℚ) - 1 / 2 ≤ numerator / denominator := by
    rw [le_div_iff₀ positive]
    linarith
  rw [abs_le]
  constructor <;> linarith

end LexKit.Real
