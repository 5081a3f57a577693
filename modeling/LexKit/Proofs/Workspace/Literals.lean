import LexKit.Proofs.Number
import LexKit.Proofs.Workspace.Numerals

/-!
# Literals that are scanned again

The literal of a finite number is a minus sign, if the number is negative, and plain decimal text
that denotes the number or comes close to it. Without the sign it is scanned to one number.
-/

set_option autoImplicit false

namespace LexKit

namespace Real

def Number.value? : Number → Option ℚ
  | .finite negative mantissa exponent =>
      let magnitude := Magnitude.value ⟨mantissa, exponent⟩
      some (if negative then -magnitude else magnitude)
  | _ => none

theorem abs_of_value? {negative : Bool} {mantissa : Nat} {exponent : Int} {value : ℚ}
    (found : (Number.finite negative mantissa exponent).value? = some value) :
    Magnitude.value ⟨mantissa, exponent⟩ = |value| := by
  have natural := Magnitude.value_nonneg ⟨mantissa, exponent⟩
  rw [← Option.some.inj found]
  cases negative with
  | false => exact (abs_of_nonneg natural).symm
  | true => exact ((abs_neg _).trans (abs_of_nonneg natural)).symm

/-- A mantissa has one bit more than the fraction at most, which bounds the digits of its literal.
-/
theorem Format.mantissa_lt_of_decode {format : Format} {bits : Nat} {negative : Bool}
    {mantissa : Nat} {exponent : Int}
    (found : format.decode bits = .finite negative mantissa exponent) :
    mantissa < 2 ^ (format.fractionBits + 1) := by
  have fraction : bits % Nat.pow 2 format.fractionBits < 2 ^ format.fractionBits :=
    Nat.mod_lt _ (Nat.pow_pos (by decide))
  have double :
      2 ^ (format.fractionBits + 1) = 2 ^ format.fractionBits + 2 ^ format.fractionBits := by omega
  unfold decode at found
  dsimp only at found
  split at found
  · split at found <;> cases found
  · split at found
    · cases found
      exact lt_of_lt_of_le fraction (by omega)
    · cases found
      rw [double]
      exact Nat.add_lt_add_left fraction _

end Real

namespace Number

/-- A literal of a magnitude, cut at its point. It is exact where the magnitude is an integer. -/
theorem exists_magnitudeLiteral (magnitude : Real.Magnitude) (small : magnitude.mantissa < 2 ^ 53) :
    ∃ decimal : PlainDecimal, magnitudeLiteral magnitude = decimal.text ∧
      (magnitude.isIntegral = true → decimal.value = magnitude.value) ∧
      |decimal.value - magnitude.value| ≤ magnitude.value / 10 ^ 16 := by
  by_cases integral : magnitude.isIntegral = true
  · have same : (PlainDecimal.ofNat magnitude.floor).value = magnitude.value := by
      rw [PlainDecimal.value_ofNat, Real.Magnitude.value_of_isIntegral integral]
    refine ⟨.ofNat magnitude.floor, ?_, fun _ => same, ?_⟩
    · rw [PlainDecimal.text_ofNat, magnitudeLiteral, if_pos integral]
    · have natural := magnitude.value_nonneg
      rw [same, sub_self, abs_zero]
      positivity
  · obtain ⟨decimal, text, near⟩ := magnitudeLiteral_of_not_isIntegral small integral
    exact ⟨decimal, text, fun also => absurd also integral, near⟩

/-- A literal has a sign if and only if the number is negative; a zero with a sign has none. -/
theorem literal?_of_finite {negative : Bool} {mantissa : Nat} {exponent : Int} {value : ℚ}
    (found : (Real.Number.finite negative mantissa exponent).value? = some value) :
    literal? (.finite negative mantissa exponent) =
      some (String.ofList (if value < 0 then '-' :: magnitudeLiteral ⟨mantissa, exponent⟩
        else magnitudeLiteral ⟨mantissa, exponent⟩)) := by
  have natural := Real.Magnitude.value_nonneg ⟨mantissa, exponent⟩
  have zero : Real.Magnitude.value ⟨mantissa, exponent⟩ = 0 ↔ mantissa = 0 := by
    simp [Real.Magnitude.value, zpow_ne_zero]
  rw [← Option.some.inj found]
  unfold literal?
  dsimp only
  cases negative with
  | false => simp [not_lt.mpr natural]
  | true =>
      by_cases nothing : mantissa = 0
      · subst nothing
        simp [zero.mpr rfl]
      · have positive := lt_of_le_of_ne natural (fun same => nothing (zero.mp same.symm))
        simp [nothing, positive]

end Number

namespace Workspace

theorem sparesDigits_default : ScanRules.default.SparesDigits :=
  ⟨by decide +kernel, by decide +kernel⟩

/-- The text is read as a number, and it is scanned to this number alone. -/
theorem tokenize_of_plainDecimal (decimal : PlainDecimal) :
    ∃ number, Number.parseFloat? decimal.text = some number ∧
      ∀ (allocator : AllocatorId) (before : Workspace),
        WorkspaceM.tokenize ⟨Utf8.encode (String.ofList decimal.text), allocator, .default⟩ before =
          .ok (.success [⟨.number number, 0⟩]) before := by
  have accepted : (Number.parseFloat? (String.ofList decimal.text).toList).isSome = true := by
    rw [Number.parseFloat?_isSome_iff, String.toList_ofList]
    exact ⟨[], decimal.text, rfl, .inl rfl, decimal.isUnsignedDecimal_text⟩
  have digit : (String.ofList decimal.text).toList.head?.any Numeral.isDigit = true := by
    rw [String.toList_ofList]
    exact decimal.head?_text
  obtain ⟨number, parsed⟩ := Option.isSome_iff_exists.mp accepted
  have begins := Number.head?_encode_of_isSome accepted digit
  have same := Number.decodeAscii_encode_of_isSome accepted
  rw [← same] at parsed
  refine ⟨number, ?_, ?_⟩
  · rw [same, String.toList_ofList] at parsed
    exact parsed
  · intro allocator before
    exact @tokenize_of_numeral ⟨_, allocator, .default⟩ number sparesDigits_default begins parsed
      before

/-- The literal of a finite number is decimal text behind a sign that says whether the number is
negative. It denotes an integer exactly and every number up to a part in 10 ^ 16, and that of a
number that is not negative is scanned to one number. -/
theorem literal_of_finite (bits : UInt64) (value : ℚ)
    (finite : (Real.ofBits bits).value? = some value) :
    ∃ (text : String) (decimal : PlainDecimal),
      Number.literal? (Real.ofBits bits) = some text ∧
      text.toList = (if value < 0 then '-' :: decimal.text else decimal.text) ∧
      (let denoted := if value < 0 then -decimal.value else decimal.value
      ((∃ integer : Int, value = integer) → denoted = value) ∧
        |denoted - value| ≤ |value| / 10 ^ 16) ∧
      (0 ≤ value → ∃ number, Number.parseFloat? text.toList = some number ∧
        ∀ (allocator : AllocatorId) (before : Workspace),
          WorkspaceM.tokenize ⟨Utf8.encode text, allocator, .default⟩ before =
            .ok (.success [⟨.number number, 0⟩]) before) := by
  have decoded : Real.ofBits bits = Real.double.decode bits.toNat := rfl
  cases found : Real.ofBits bits with
  | infinite negative =>
      rw [found] at finite
      cases finite
  | notANumber negative fraction =>
      rw [found] at finite
      cases finite
  | finite negative mantissa exponent =>
      rw [found] at finite decoded
      have small := Real.Format.mantissa_lt_of_decode decoded.symm
      obtain ⟨decimal, same, exact_, near⟩ :=
        Number.exists_magnitudeLiteral ⟨mantissa, exponent⟩ small
      have written := Number.literal?_of_finite finite
      rw [same] at written
      have size := Real.abs_of_value? finite
      rw [size] at near
      refine ⟨_, decimal, written, String.toList_ofList, ⟨?_, ?_⟩, ?_⟩
      · rintro ⟨integer, rfl⟩
        have whole : decimal.value = |(integer : ℚ)| := by
          rw [exact_ (Real.Magnitude.isIntegral_of_value |integer| ?_), size]
          rw [size, Int.cast_abs]
        by_cases negative : (integer : ℚ) < 0
        · rw [if_pos negative, whole, abs_of_neg negative, neg_neg]
        · rw [if_neg negative, whole, abs_of_nonneg (not_lt.mp negative)]
      · by_cases negative : value < 0
        · rw [if_pos negative]
          rwa [abs_of_neg negative, sub_neg_eq_add, ← abs_neg, neg_add, ← sub_eq_add_neg,
            ← abs_of_neg negative] at near
        · rw [if_neg negative]
          rwa [abs_of_nonneg (not_lt.mp negative)] at near ⊢
      · intro natural
        rw [if_neg (not_lt.mpr natural), String.toList_ofList]
        exact tokenize_of_plainDecimal decimal

/-- The number just below 10 ^ -5. Rounded to seven digits it is 10 ^ -5, so that it is written with
one place fewer than its leading digit asks for. -/
theorem literal_of_finite_below_power :
    (Real.ofBits 0x3EE4F8B588E368F0).value? =
      some (Real.Magnitude.value ⟨0x14F8B588E368F0, -69⟩) ∧
    ∃ (text : String) (decimal : PlainDecimal),
      Number.literal? (Real.ofBits 0x3EE4F8B588E368F0) = some text ∧ text.toList = decimal.text ∧
      |decimal.value - Real.Magnitude.value ⟨0x14F8B588E368F0, -69⟩| ≤
        Real.Magnitude.value ⟨0x14F8B588E368F0, -69⟩ / 10 ^ 16 := by
  have finite : (Real.ofBits 0x3EE4F8B588E368F0).value? =
      some (Real.Magnitude.value ⟨0x14F8B588E368F0, -69⟩) := by
    have decoded : Real.ofBits 0x3EE4F8B588E368F0 = .finite false 0x14F8B588E368F0 (-69) := by
      decide +kernel
    rw [decoded]
    rfl
  have natural := Real.Magnitude.value_nonneg ⟨0x14F8B588E368F0, -69⟩
  obtain ⟨text, decimal, written, same, ⟨-, near⟩, -⟩ := literal_of_finite _ _ finite
  rw [if_neg (not_lt.mpr natural)] at same near
  rw [abs_of_nonneg natural] at near
  exact ⟨finite, text, decimal, written, same, near⟩

end Workspace

end LexKit
