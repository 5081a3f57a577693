import LexKit.Quantity

/-!
# Integers as quantities

Quantities that are integers are compared and added as integers are.
-/

set_option autoImplicit false

namespace LexKit.Quantity

private theorem signed_int (value : Int) :
    Real.Number.signed (decide (value < 0)) value.natAbs = value := by
  unfold Real.Number.signed
  by_cases negative : value < 0
  · rw [decide_eq_true negative, if_pos rfl]
    omega
  · rw [decide_eq_false negative, if_neg (by decide)]
    omega

theorem order?_int (left right : Int) :
    (Quantity.int left).order? (.int right) = some (compare left right) := by
  simp only [order?, number, Real.Number.order?, Real.Number.compareScaled, signed_int]
  simp

@[simp]
theorem isLess_int (left right : Int) :
    (Quantity.int left).isLess (.int right) = decide (left < right) := by
  rw [isLess, order?_int]
  by_cases less : left < right
  · rw [Int.compare_eq_lt.mpr less, decide_eq_true less]
    rfl
  · rw [decide_eq_false less]
    refine beq_eq_false_iff_ne.mpr fun same => less ?_
    exact Int.compare_eq_lt.mp (Option.some.inj same)

@[simp]
theorem isAtMost_int (left right : Int) :
    (Quantity.int left).isAtMost (.int right) = decide (left ≤ right) := by
  rw [isAtMost, isLess_int, order?_int]
  by_cases less : left < right
  · rw [decide_eq_true less, decide_eq_true (Int.le_of_lt less)]
    rfl
  · rw [decide_eq_false less, Bool.false_or]
    by_cases same : left = right
    · rw [Int.compare_eq_eq.mpr same, decide_eq_true (Int.le_of_eq same)]
      rfl
    · rw [decide_eq_false (by omega)]
      refine beq_eq_false_iff_ne.mpr fun equal => same ?_
      exact Int.compare_eq_eq.mp (Option.some.inj equal)

@[simp]
theorem isNegative_int (value : Int) :
    (Quantity.int value).isNegative = decide (value < 0) :=
  isLess_int value 0

@[simp]
theorem add?_int (left right : Int) :
    (Quantity.int left).add? (.int right) = some (.int (left + right)) :=
  rfl

end LexKit.Quantity
