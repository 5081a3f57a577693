import LexKit.Proofs.Real.Rounding
import LexKit.Real.Decimal
import Mathlib.Data.Nat.Cast.Field

/-!
# Decimals of binary numbers

A magnitude denotes a rational number. The exponent of its leading decimal digit is found exactly,
and a decimal with a number of significant digits is at most half of its last place away from it,
also where rounding moves the point.
-/

set_option autoImplicit false

namespace LexKit.Real

variable {magnitude : Magnitude}

/-- A power is a quotient of natural powers, one of which is one. -/
theorem zpow_eq_quotient (base : Nat) (exponent : Int) :
    (base : ℚ) ^ exponent =
      (Nat.pow base exponent.toNat : ℚ) / (Nat.pow base (-exponent).toNat : Nat) := by
  rcases Int.le_total 0 exponent with natural | negative
  · obtain ⟨places, rfl⟩ := Int.eq_ofNat_of_zero_le natural
    simp
  · obtain ⟨places, same⟩ := Int.eq_ofNat_of_zero_le (Int.neg_nonneg_of_nonpos negative)
    obtain rfl : exponent = -places := by omega
    simp

namespace Magnitude

def value (magnitude : Magnitude) : ℚ :=
  magnitude.mantissa * 2 ^ magnitude.exponent

theorem denominator_pos (magnitude : Magnitude) : 0 < magnitude.denominator :=
  Nat.pow_pos (by decide)

theorem value_eq (magnitude : Magnitude) :
    magnitude.value = magnitude.numerator / magnitude.denominator := by
  have power := zpow_eq_quotient 2 magnitude.exponent
  rw [Nat.cast_ofNat] at power
  rw [value, power, numerator, denominator, Nat.cast_mul, mul_div_assoc]

theorem value_nonneg (magnitude : Magnitude) : 0 ≤ magnitude.value := by
  unfold value
  positivity

theorem value_of_isIntegral (integral : magnitude.isIntegral = true) :
    magnitude.value = magnitude.floor := by
  have positive : (magnitude.denominator : ℚ) ≠ 0 := by
    exact_mod_cast magnitude.denominator_pos.ne'
  have divides := Nat.dvd_of_mod_eq_zero (eq_of_beq integral)
  rw [value_eq, floor, Nat.cast_div divides positive]

theorem isIntegral_of_value (integer : Int) (same : magnitude.value = integer) :
    magnitude.isIntegral = true := by
  have positive : (magnitude.denominator : ℚ) ≠ 0 := by
    exact_mod_cast magnitude.denominator_pos.ne'
  rw [value_eq, div_eq_iff positive] at same
  have whole : (magnitude.numerator : Int) = integer * magnitude.denominator := by
    exact_mod_cast same
  have divides : (magnitude.denominator : Int) ∣ magnitude.numerator := ⟨integer, by
    rw [whole, mul_comm]⟩
  exact beq_iff_eq.mpr (Nat.mod_eq_zero_of_dvd (Int.natCast_dvd_natCast.mp divides))

/-- Mantissas that are less than 2 ^ 53 denote integers from there on. -/
theorem value_lt_of_not_isIntegral (small : magnitude.mantissa < 2 ^ 53)
    (fractional : ¬magnitude.isIntegral = true) : magnitude.value < 10 ^ 16 := by
  have negative : magnitude.exponent < 0 := by
    by_contra natural
    obtain ⟨places, same⟩ := Int.eq_ofNat_of_zero_le (not_lt.mp natural)
    refine fractional (isIntegral_of_value (magnitude.mantissa * 2 ^ places) ?_)
    rw [value, same]
    push_cast
    rfl
  have power : (2 : ℚ) ^ magnitude.exponent ≤ 1 :=
    zpow_le_one_of_nonpos₀ (by norm_num) negative.le
  have mantissa : (magnitude.mantissa : ℚ) < 2 ^ 53 := by exact_mod_cast small
  calc magnitude.value ≤ magnitude.mantissa * 1 :=
        mul_le_mul_of_nonneg_left power (Nat.cast_nonneg _)
    _ < 2 ^ 53 := by rwa [mul_one]
    _ < 10 ^ 16 := by norm_num

end Magnitude

/-- Rounding is of the magnitude times a power of ten. -/
theorem abs_roundedTo_sub_le (magnitude : Magnitude) (places : Int) :
    |(roundedTo magnitude places : ℚ) - magnitude.value * 10 ^ places| ≤ 1 / 2 := by
  have power := zpow_eq_quotient 10 places
  rw [Nat.cast_ofNat] at power
  have scaled : magnitude.value * 10 ^ places =
      ((magnitude.numerator * Nat.pow 10 places.toNat : Nat) : ℚ) /
        (magnitude.denominator * Nat.pow 10 (-places).toNat : Nat) := by
    rw [Magnitude.value_eq, power, div_mul_div_comm, ← Nat.cast_mul, ← Nat.cast_mul]
  rw [scaled]
  exact abs_roundQuotient_sub_le (Nat.mul_pos magnitude.denominator_pos (Nat.pow_pos (by decide)))

/-! ## The leading digit -/

theorem digitCount_pos (value : Nat) : 0 < digitCount value :=
  Nat.length_toDigits_pos

theorem lt_pow_digitCount (value : Nat) : value < 10 ^ digitCount value :=
  (Nat.length_toDigits_le_iff (by decide) (digitCount_pos value)).mp (Nat.le_refl _)

theorem pow_digitCount_le {value : Nat} (positive : 0 < value) :
    10 ^ (digitCount value - 1) ≤ value := by
  by_contra small
  have counted := digitCount_pos value
  by_cases one : digitCount value = 1
  · rw [one] at small
    exact small positive
  · have fewer := (Nat.length_toDigits_le_iff (b := 10) (by decide) (by omega)).mpr
      (not_le.mp small)
    change digitCount value ≤ _ at fewer
    omega

/-- The integer part of a quotient that is at least one has the leading digit of the quotient. -/
private theorem quotient_bounds {numerator denominator : Nat} (positive : 0 < denominator)
    (least : denominator ≤ numerator) :
    (10 : ℚ) ^ ((digitCount (numerator / denominator) : Int) - 1) ≤ numerator / denominator ∧
      (numerator : ℚ) / denominator < 10 ^ (digitCount (numerator / denominator) : Int) := by
  have quotient : 0 < numerator / denominator := Nat.div_pos least positive
  have low := pow_digitCount_le quotient
  have high := lt_pow_digitCount (numerator / denominator)
  obtain ⟨more, counted⟩ := Nat.exists_eq_succ_of_ne_zero
    (digitCount_pos (numerator / denominator)).ne'
  rw [counted] at low high ⊢
  rw [Nat.succ_sub_one] at low
  have same : ((more.succ : Nat) : Int) - 1 = more := by omega
  have positive : (0 : ℚ) < denominator := by exact_mod_cast positive
  rw [same, zpow_natCast, zpow_natCast, le_div_iff₀ positive, div_lt_iff₀ positive]
  constructor
  · exact_mod_cast (Nat.mul_le_mul_right denominator low).trans (Nat.div_mul_le_self _ _)
  · exact_mod_cast (Nat.div_lt_iff_lt_mul (by exact_mod_cast positive)).mp high

/-- The decimal exponent brackets a positive number between two powers of ten, though it is found by
counting digits of integers only. -/
theorem decimalExponent_bounds (positive : 0 < magnitude.value) :
    (10 : ℚ) ^ decimalExponent magnitude ≤ magnitude.value ∧
      magnitude.value < 10 ^ (decimalExponent magnitude + 1) := by
  have denominator := magnitude.denominator_pos
  have numerator : 0 < magnitude.numerator := by
    by_contra nothing
    rw [Magnitude.value_eq, Nat.eq_zero_of_not_pos nothing] at positive
    simp at positive
  rw [Magnitude.value_eq]
  unfold decimalExponent
  dsimp only
  by_cases large : magnitude.numerator ≥ magnitude.denominator
  · rw [if_pos large, sub_add_cancel]
    exact quotient_bounds denominator large
  · rw [if_neg large]
    obtain ⟨low, high⟩ := quotient_bounds numerator (Nat.le_of_lt (not_le.mp large))
    generalize counted : digitCount (magnitude.denominator / magnitude.numerator) = digits
      at low high ⊢
    obtain ⟨more, rfl⟩ := Nat.exists_eq_succ_of_ne_zero (counted ▸ (digitCount_pos _).ne')
    have same : ((more.succ : Nat) : Int) - 1 = more := by omega
    have numerator : (0 : ℚ) < magnitude.numerator := by exact_mod_cast numerator
    have denominator : (0 : ℚ) < magnitude.denominator := by exact_mod_cast denominator
    rw [same, le_div_iff₀ numerator] at low
    rw [div_lt_iff₀ numerator] at high
    rw [same, Nat.succ_sub_one]
    have reaches (places : Nat) : (10 : ℚ) ^ (-(places : Int)) ≤
        magnitude.numerator / magnitude.denominator ↔
          (magnitude.denominator : ℚ) ≤ magnitude.numerator * 10 ^ places := by
      rw [zpow_neg, zpow_natCast, le_div_iff₀ denominator, inv_mul_le_iff₀ (by positivity),
        mul_comm]
    have keeps_to (places : Nat) : (magnitude.numerator : ℚ) / magnitude.denominator ≤
        10 ^ (-(places : Int)) ↔
          magnitude.numerator * 10 ^ places ≤ (magnitude.denominator : ℚ) := by
      rw [zpow_neg, zpow_natCast, div_le_iff₀ denominator, ← div_eq_inv_mul,
        le_div_iff₀ (by positivity)]
    rw [zpow_natCast, mul_comm] at low
    rw [zpow_natCast, mul_comm] at high
    by_cases reached : magnitude.numerator * Nat.pow 10 more ≥ magnitude.denominator
    · rw [if_pos reached]
      refine ⟨(reaches more).mpr (by exact_mod_cast reached), ?_⟩
      exact lt_of_le_of_lt ((keeps_to more).mpr low)
        (zpow_lt_zpow_right₀ (by norm_num) (lt_add_one _))
    · rw [if_neg reached]
      have same : -((more.succ : Nat) : Int) + 1 = -more := by omega
      refine ⟨(reaches more.succ).mpr high.le, ?_⟩
      rw [same]
      refine lt_of_not_ge fun also => reached ?_
      exact_mod_cast (reaches more).mp also

/-! ## Significant digits -/

def Significant.value (count : Nat) (decimal : Significant) : ℚ :=
  decimal.digits * 10 ^ (decimal.exponent - ((count : Int) - 1))

/-- Rounding divides by the weight of the last place. -/
theorem abs_roundedTo_mul_sub_le (magnitude : Magnitude) (places : Int) :
    |(roundedTo magnitude places : ℚ) * 10 ^ (-places) - magnitude.value| ≤ 10 ^ (-places) / 2 := by
  have rounded := abs_roundedTo_sub_le magnitude places
  have weight : (0 : ℚ) < 10 ^ (-places) := by positivity
  have undone : (10 : ℚ) ^ places * 10 ^ (-places) = 1 := by
    rw [← zpow_add₀ (by norm_num), add_neg_cancel, zpow_zero]
  calc |(roundedTo magnitude places : ℚ) * 10 ^ (-places) - magnitude.value|
      = |(roundedTo magnitude places - magnitude.value * 10 ^ places) * 10 ^ (-places)| := by
        rw [sub_mul, mul_assoc magnitude.value, undone, mul_one]
    _ = |(roundedTo magnitude places : ℚ) - magnitude.value * 10 ^ places| * 10 ^ (-places) := by
        rw [abs_mul, abs_of_pos weight]
    _ ≤ 1 / 2 * 10 ^ (-places) := mul_le_mul_of_nonneg_right rounded weight.le
    _ = 10 ^ (-places) / 2 := by ring

/-- A decimal with `count` digits next to a magnitude whose leading digit has the exponent `lead`.
The decimal has it, too, or the magnitude is almost at the next power of ten, which the decimal is.
-/
structure IsNearest (count : Nat) (magnitude : Magnitude) (lead : Int) (decimal : Significant) :
    Prop where
  near : |decimal.value count - magnitude.value| ≤ 10 ^ (lead - ((count : Int) - 1)) / 2
  exponent : decimal.exponent = lead ∨
    decimal.exponent = lead + 1 ∧
      (10 : ℚ) ^ (lead + 1) - 10 ^ (lead - ((count : Int) - 1)) / 2 ≤ magnitude.value

theorem isNearest_significant (more : Nat) (positive : 0 < magnitude.value) :
    IsNearest (more + 1) magnitude (decimalExponent magnitude)
      (significant (more + 1) magnitude) := by
  have bounds := (decimalExponent_bounds positive).2
  have near := abs_roundedTo_mul_sub_le magnitude (more - decimalExponent magnitude)
  have places : ((more + 1 : Nat) : Int) - 1 = more := by omega
  unfold significant
  dsimp only
  rw [places]
  rw [neg_sub] at near
  generalize decimalExponent magnitude = lead at *
  generalize roundedTo magnitude (more - lead) = rounded at *
  have value (decimal : Significant) :
      decimal.value (more + 1) = decimal.digits * 10 ^ (decimal.exponent - more) := by
    rw [Significant.value, places]
  by_cases carries : rounded ≥ Nat.pow 10 (more + 1)
  · rw [if_pos carries]
    have weight : (0 : ℚ) < 10 ^ (lead - more) := by positivity
    have next : (10 : ℚ) ^ (lead + 1) = 10 ^ (more + 1) * 10 ^ (lead - more) := by
      rw [← zpow_natCast, ← zpow_add₀ (by norm_num)]
      congr 1
      omega
    obtain ⟨low, high⟩ := abs_le.mp near
    -- The magnitude is below the next power of ten, so that nothing beyond it is reached.
    have reached : rounded = 10 ^ (more + 1) := by
      refine Nat.le_antisymm (Nat.lt_succ_iff.mp ?_) carries
      have less : (rounded : ℚ) * 10 ^ (lead - more) <
          (10 ^ (more + 1) + 1) * 10 ^ (lead - more) := by
        linarith
      exact_mod_cast lt_of_mul_lt_mul_right less weight.le
    have power : (rounded : ℚ) * 10 ^ (lead - more) = 10 ^ (lead + 1) := by
      rw [reached, next]
      push_cast
      rfl
    refine ⟨?_, .inr ⟨rfl, ?_⟩⟩
    · have moved : ((rounded / 10 : Nat) : ℚ) * 10 ^ (lead + 1 - more) =
          rounded * 10 ^ (lead - more) := by
        rw [power, reached, Nat.pow_succ, Nat.mul_div_cancel _ (by decide), Nat.cast_pow,
          ← zpow_natCast, Nat.cast_ofNat, ← zpow_add₀ (by norm_num)]
        congr 1
        omega
      rw [value, places, moved]
      exact near
    · rw [places]
      linarith
  · rw [if_neg carries]
    refine ⟨?_, .inl rfl⟩
    rw [value, places]
    exact near

end LexKit.Real
