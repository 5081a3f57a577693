import LexKit.Number
import LexKit.Proofs.Numeral
import LexKit.Proofs.Real.Decimal
import Mathlib.Data.List.DropRight

/-!
# Literals of numbers

A literal is decimal text without exponent, and without zeros at the end of its fraction. It denotes
an integer exactly, and any other number up to a part in 10 ^ 16.
-/

set_option autoImplicit false

namespace LexKit

/-- Decimal text without a sign, cut at its point. Text without fraction digits has no point. -/
structure PlainDecimal where
  whole : List Char
  fraction : List Char
  nonempty : whole ≠ []
  wholeDigits : ∀ char ∈ whole, Numeral.isDigit char = true
  fractionDigits : ∀ char ∈ fraction, Numeral.isDigit char = true
  trimmed : fraction.getLast? ≠ some '0'

namespace PlainDecimal

def text (decimal : PlainDecimal) : List Char :=
  decimal.whole ++ if decimal.fraction = [] then [] else '.' :: decimal.fraction

def value (decimal : PlainDecimal) : ℚ :=
  Nat.ofDigitChars 10 decimal.whole 0 +
    Nat.ofDigitChars 10 decimal.fraction 0 / 10 ^ decimal.fraction.length

/-- What is written for a number has the form that reading expects, at least one digit included. -/
theorem isUnsignedDecimal_text (decimal : PlainDecimal) :
    IsUnsignedDecimal '.' Numeral.isDigit decimal.text := by
  rw [isUnsignedDecimal_iff rfl]
  unfold text
  split
  · rw [List.append_nil]
    exact .inl ⟨decimal.nonempty, decimal.wholeDigits⟩
  · refine .inr ⟨_, _, rfl, decimal.wholeDigits, decimal.fractionDigits, ?_⟩
    exact List.append_ne_nil_of_left_ne_nil decimal.nonempty _

theorem head?_text (decimal : PlainDecimal) :
    decimal.text.head?.any Numeral.isDigit = true := by
  obtain ⟨whole, fraction, nonempty, digits, -, -⟩ := decimal
  cases whole with
  | nil => exact absurd rfl nonempty
  | cons char rest => exact digits char List.mem_cons_self

end PlainDecimal

namespace Real

theorem isDigit_of_mem_toDigits {value : Nat} {char : Char}
    (member : char ∈ Nat.toDigits 10 value) : Numeral.isDigit char = true :=
  Nat.isDigit_of_mem_toDigits (by decide) (by decide) member

theorem isDigit_of_mem_paddedDigits {width value : Nat} {char : Char}
    (member : char ∈ paddedDigits width value) : Numeral.isDigit char = true := by
  rcases List.mem_append.mp member with zero | digit
  · rw [(List.mem_replicate.mp zero).2]
    rfl
  · exact isDigit_of_mem_toDigits digit

theorem ofDigitChars_paddedDigits (width value : Nat) :
    Nat.ofDigitChars 10 (paddedDigits width value) 0 = value := by
  unfold paddedDigits
  rw [Nat.ofDigitChars_append, Nat.ofDigitChars_replicate_zero, Nat.mul_zero,
    Nat.ofDigitChars_ten_toDigits]

theorem length_paddedDigits {width value : Nat} (positive : 0 < width)
    (small : value < 10 ^ width) : (paddedDigits width value).length = width := by
  have counted := (Nat.length_toDigits_le_iff (by decide) positive).mpr small
  rw [paddedDigits, List.length_append, List.length_replicate]
  omega

theorem getLast?_rdropWhile_zero (digits : List Char) :
    (digits.rdropWhile (· == '0')).getLast? ≠ some '0' := by
  intro last
  have nonempty : digits.rdropWhile (· == '0') ≠ [] := by
    intro nothing
    rw [nothing] at last
    cases last
  have other := List.rdropWhile_last_not (· == '0') digits nonempty
  rw [List.getLast?_eq_some_getLast nonempty, Option.some.injEq] at last
  rw [last] at other
  exact other rfl

/-- Zeros at the end of a fraction add nothing to it. -/
theorem ofDigitChars_rdropWhile_zero (digits : List Char) :
    (Nat.ofDigitChars 10 (digits.rdropWhile (· == '0')) 0 : ℚ) /
        10 ^ (digits.rdropWhile (· == '0')).length =
      Nat.ofDigitChars 10 digits 0 / 10 ^ digits.length := by
  have parts := List.rdropWhile_append_rtakeWhile (p := (· == '0')) (l := digits)
  have zero : ∀ char ∈ digits.rtakeWhile (· == '0'), char = '0' := fun _ member =>
    eq_of_beq (List.mem_rtakeWhile_imp (p := (· == '0')) member)
  rw [List.eq_replicate_of_mem zero] at parts
  generalize digits.rdropWhile (· == '0') = kept at parts ⊢
  generalize (digits.rtakeWhile (· == '0')).length = zeros at parts
  subst parts
  rw [Nat.ofDigitChars_append, Nat.ofDigitChars_replicate_zero, List.length_append,
    List.length_replicate, pow_add]
  push_cast
  field_simp

/-- What is left of a fraction of zeros is the point, which goes with them. -/
theorem trimFraction_pointed {whole fraction : List Char}
    (digits : ∀ char ∈ fraction, Numeral.isDigit char = true) :
    trimFraction (whole ++ '.' :: fraction) =
      whole ++ if fraction.rdropWhile (· == '0') = [] then []
        else '.' :: fraction.rdropWhile (· == '0') := by
  have pointed : (whole ++ '.' :: fraction).contains '.' = true := by simp
  have reversed :
      (whole ++ '.' :: fraction).reverse = fraction.reverse ++ '.' :: whole.reverse := by simp
  unfold trimFraction
  rw [if_pos pointed, reversed, List.dropWhile_append]
  unfold List.rdropWhile
  cases kept : fraction.reverse.dropWhile (· == '0') with
  | nil => simp
  | cons last rest =>
      have digit : Numeral.isDigit last = true := by
        refine digits last (List.mem_reverse.mp ((List.dropWhile_sublist (· == '0')).subset ?_))
        rw [kept]
        exact List.mem_cons_self
      have other : last ≠ '.' := by
        rintro rfl
        cases digit
      simp [other]

theorem trimFraction_unpointed {chars : List Char}
    (digits : ∀ char ∈ chars, Numeral.isDigit char = true) : trimFraction chars = chars := by
  unfold trimFraction
  rw [if_neg]
  intro pointed
  exact absurd (digits '.' (List.contains_iff_mem.mp pointed)) (by decide)

end Real

namespace PlainDecimal

def ofNat (value : Nat) : PlainDecimal where
  whole := Nat.toDigits 10 value
  fraction := []
  nonempty := Nat.toDigits_ne_nil
  wholeDigits _ member := Real.isDigit_of_mem_toDigits member
  fractionDigits _ member := absurd member List.not_mem_nil
  trimmed := by simp

def ofPlaces (units places : Nat) : PlainDecimal where
  whole := Nat.toDigits 10 (units / 10 ^ places)
  fraction := (Real.paddedDigits places (units % 10 ^ places)).rdropWhile (· == '0')
  nonempty := Nat.toDigits_ne_nil
  wholeDigits _ member := Real.isDigit_of_mem_toDigits member
  fractionDigits _ member :=
    Real.isDigit_of_mem_paddedDigits ((List.rdropWhile_prefix _ _).subset member)
  trimmed := Real.getLast?_rdropWhile_zero _

theorem text_ofNat (value : Nat) : (ofNat value).text = Nat.toDigits 10 value :=
  List.append_nil (Nat.toDigits 10 value)

theorem value_ofNat (value : Nat) : (ofNat value).value = value := by
  simp [PlainDecimal.value, ofNat]

theorem text_ofPlaces (units places : Nat) :
    (ofPlaces units places).text = Real.trimFraction (Real.positional units places) := by
  unfold Real.positional
  by_cases unpointed : places = 0
  · subst unpointed
    rw [if_pos rfl, Real.trimFraction_unpointed fun _ member => Real.isDigit_of_mem_toDigits member]
    have nothing : (ofPlaces units 0).fraction = [] := by
      change (Real.paddedDigits 0 (units % 10 ^ 0)).rdropWhile (· == '0') = []
      rw [Nat.pow_zero, Nat.mod_one]
      rfl
    rw [text, nothing, if_pos rfl, List.append_nil]
    exact congrArg (Nat.toDigits 10) (Nat.div_one units)
  · rw [if_neg unpointed,
      Real.trimFraction_pointed fun _ member => Real.isDigit_of_mem_paddedDigits member]
    rfl

theorem value_ofPlaces (units places : Nat) :
    (ofPlaces units places).value = (units : ℚ) / 10 ^ places := by
  unfold value ofPlaces
  dsimp only
  rw [Real.ofDigitChars_rdropWhile_zero, Real.ofDigitChars_paddedDigits,
    Nat.ofDigitChars_ten_toDigits]
  have scale : (0 : ℚ) < 10 ^ places := by positivity
  have parts :
      (units : ℚ) = 10 ^ places * (units / 10 ^ places : Nat) + (units % 10 ^ places : Nat) := by
    exact_mod_cast (Nat.div_add_mod units (10 ^ places)).symm
  by_cases unpointed : places = 0
  · subst unpointed
    simp [Nat.mod_one]
  · rw [Real.length_paddedDigits (Nat.pos_of_ne_zero unpointed)
      (Nat.mod_lt _ (Nat.pow_pos (by decide))), eq_div_iff scale.ne', parts]
    field_simp

end PlainDecimal

namespace Number

variable {magnitude : Real.Magnitude}

/-- Half of the last of seventeen digits is less than a part in 10 ^ 16. -/
private theorem half_place_le {lead : Int} {error : ℚ} (reached : 10 ^ lead ≤ magnitude.value)
    (near : error ≤ 10 ^ (lead - 16) / 2) : error ≤ magnitude.value / 10 ^ 16 := by
  have split : (10 : ℚ) ^ (lead - 16) = 10 ^ lead / 10 ^ 16 := by
    rw [zpow_sub₀ (by norm_num)]
    rfl
  have natural := magnitude.value_nonneg
  rw [split] at near
  rw [le_div_iff₀ (by norm_num)]
  linarith

/-- The literal of a magnitude that is no integer, cut at its point. -/
theorem magnitudeLiteral_of_not_isIntegral (small : magnitude.mantissa < 2 ^ 53)
    (fractional : ¬magnitude.isIntegral = true) :
    ∃ decimal : PlainDecimal, magnitudeLiteral magnitude = decimal.text ∧
      |decimal.value - magnitude.value| ≤ magnitude.value / 10 ^ 16 := by
  have positive : 0 < magnitude.value := by
    refine lt_of_le_of_ne magnitude.value_nonneg fun zero => fractional ?_
    exact Real.Magnitude.isIntegral_of_value 0 (by rw [← zero, Int.cast_zero])
  have below := Real.Magnitude.value_lt_of_not_isIntegral small fractional
  obtain ⟨reached, -⟩ := Real.decimalExponent_bounds positive
  obtain ⟨near, lead_17⟩ := Real.isNearest_significant 16 positive
  obtain ⟨-, lead_7⟩ := Real.isNearest_significant 6 positive
  generalize Real.decimalExponent magnitude = lead at *
  have lead_lt : lead < 16 := (zpow_lt_zpow_iff_right₀ (by norm_num : (1 : ℚ) < 10)).mp
    (lt_of_le_of_lt reached below)
  unfold magnitudeLiteral
  rw [if_neg fractional]
  dsimp only [literalDigits, smallPlaces, Nat.reduceAdd] at near lead_17 lead_7 ⊢
  by_cases large : -4 ≤ (Real.significant 17 magnitude).exponent
  · rw [if_pos large]
    refine ⟨_, (PlainDecimal.text_ofPlaces _ _).symm, half_place_le reached ?_⟩
    rw [PlainDecimal.value_ofPlaces]
    generalize Real.significant 17 magnitude = rounded at *
    have places : (((17 : Nat) : Int) - 1 - rounded.exponent).toNat = 16 - rounded.exponent := by
      omega
    have same : (rounded.digits : ℚ) / 10 ^ (((17 : Nat) : Int) - 1 - rounded.exponent).toNat =
        rounded.value 17 := by
      rw [Real.Significant.value, div_eq_mul_inv, ← zpow_natCast, ← zpow_neg, places, neg_sub]
      rfl
    rw [same]
    exact near
  · rw [if_neg large]
    refine ⟨_, (PlainDecimal.text_ofPlaces _ _).symm, ?_⟩
    rw [PlainDecimal.value_ofPlaces]
    generalize (Real.significant 7 magnitude).exponent = exponent at *
    have counted : (((17 : Nat) : Int) - 1 - exponent).toNat = 16 - exponent := by omega
    generalize (((17 : Nat) : Int) - 1 - exponent).toNat = places at counted ⊢
    have rounded := Real.abs_roundedTo_mul_sub_le magnitude places
    rw [zpow_neg, zpow_natCast, ← div_eq_mul_inv, ← zpow_natCast, ← zpow_neg, counted,
      neg_sub] at rounded
    rw [← zpow_natCast, counted]
    refine rounded.trans ?_
    rcases lead_7 with rfl | ⟨rfl, almost⟩
    · exact half_place_le reached le_rfl
    -- The place that is missing is made up for by a magnitude near the next power of ten.
    · have split (places : Nat) :
          (10 : ℚ) ^ (lead + 1 - places) = 10 ^ (lead + 1) / 10 ^ places := by
        rw [zpow_sub₀ (by norm_num), zpow_natCast]
      have weight : (0 : ℚ) < 10 ^ (lead + 1) := by positivity
      have near : (10 : ℚ) ^ (lead - (((7 : Nat) : Int) - 1)) = 10 ^ (lead + 1) / 10 ^ 7 := by
        rw [← split]
        congr 1
        omega
      have last := split 16
      rw [near] at almost
      norm_num at almost last ⊢
      linarith

end Number

end LexKit
