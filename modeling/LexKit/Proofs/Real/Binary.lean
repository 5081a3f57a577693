import LexKit.Buffer.Item
import LexKit.Proofs.Real.Decimal

/-!
# Numbers of a binary format

A number of a format has one mantissa and one exponent in it, and rounding finds them again from any
product of an integer and a power of two that denotes the number. A number of a narrow format is
one of binary64, too, so that widening and narrowing give back the pattern. What is not a number
keeps its sign and the leading part of its fraction, and comes back as a quiet one.
-/

set_option autoImplicit false

namespace LexKit.Real

/-! ## The leading binary digit -/

/-- The exponent of a quotient is found from the bit lengths of its parts, and corrected by one
comparison; it brackets the quotient between two powers of two. -/
theorem binaryExponent_bounds {numerator denominator : Nat} (positive : 0 < numerator)
    (divides : 0 < denominator) :
    (2 : ℚ) ^ Format.binaryExponent numerator denominator ≤ numerator / denominator ∧
      (numerator : ℚ) / denominator < 2 ^ (Format.binaryExponent numerator denominator + 1) := by
  have above : (0 : ℚ) < denominator := by exact_mod_cast divides
  have low : (2 : ℚ) ^ (numerator.log2 : Int) ≤ numerator := by
    rw [zpow_natCast]
    exact_mod_cast Nat.log2_self_le positive.ne'
  have high : (numerator : ℚ) < 2 ^ ((numerator.log2 : Int) + 1) := by
    exact_mod_cast @Nat.lt_log2_self numerator
  have lowDenominator : (2 : ℚ) ^ (denominator.log2 : Int) ≤ denominator := by
    rw [zpow_natCast]
    exact_mod_cast Nat.log2_self_le divides.ne'
  have highDenominator : (denominator : ℚ) < 2 ^ ((denominator.log2 : Int) + 1) := by
    exact_mod_cast @Nat.lt_log2_self denominator
  unfold Format.binaryExponent
  dsimp only
  generalize estimated : (numerator.log2 : Int) - denominator.log2 = estimate
  have power := zpow_eq_quotient 2 estimate
  rw [Nat.cast_ofNat] at power
  have bottom : (0 : ℚ) < (Nat.pow 2 (-estimate).toNat : Nat) := by
    exact_mod_cast Nat.pow_pos (by decide : 0 < 2)
  -- The comparison in integers is the one of the quotient with the power that is estimated.
  have compared : numerator * Nat.pow 2 (-estimate).toNat ≥
      denominator * Nat.pow 2 estimate.toNat ↔ (2 : ℚ) ^ estimate ≤ numerator / denominator := by
    rw [power, div_le_div_iff₀ bottom above, ge_iff_le, mul_comm denominator]
    norm_cast
  split
  · rename_i reached
    refine ⟨compared.mp reached, ?_⟩
    rw [div_lt_iff₀ above]
    calc (numerator : ℚ) < 2 ^ ((numerator.log2 : Int) + 1) := high
      _ = 2 ^ (estimate + 1) * 2 ^ (denominator.log2 : Int) := by
          rw [← zpow_add₀ (by norm_num)]
          congr 1
          omega
      _ ≤ 2 ^ (estimate + 1) * denominator := by gcongr
  · rename_i short
    rw [sub_add_cancel]
    refine ⟨?_, not_le.mp fun reached => short (compared.mpr reached)⟩
    rw [le_div_iff₀ above]
    calc (2 : ℚ) ^ (estimate - 1) * denominator
        ≤ 2 ^ (estimate - 1) * 2 ^ ((denominator.log2 : Int) + 1) := by gcongr
      _ = 2 ^ (numerator.log2 : Int) := by
          rw [← zpow_add₀ (by norm_num)]
          congr 1
          omega
      _ ≤ numerator := low

/-- No other power of two lies so close below the quotient. -/
theorem zpow_interval_unique {first second : Int} {value : ℚ} (low : (2 : ℚ) ^ first ≤ value)
    (high : value < 2 ^ (first + 1)) (also : (2 : ℚ) ^ second ≤ value)
    (below : value < 2 ^ (second + 1)) : first = second := by
  have upper : first < second + 1 := (zpow_lt_zpow_iff_right₀ (by norm_num)).mp (low.trans_lt below)
  have lower : second < first + 1 := (zpow_lt_zpow_iff_right₀ (by norm_num)).mp (also.trans_lt high)
  omega

namespace Format

variable {format : Format} {mantissa : Nat} {exponent : Int} {negative : Bool} {magnitude : Nat}

/-! ## Mantissas and exponents -/

/-- The magnitude bits of a mantissa and an exponent of the format. -/
def magnitudeBits (format : Format) (mantissa : Nat) (exponent : Int) : Nat :=
  (exponent - format.leastExponent).toNat * 2 ^ format.fractionBits + mantissa

/-- The mantissa has its leading bit, unless the exponent is the least one. -/
structure Canonical (format : Format) (mantissa : Nat) (exponent : Int) : Prop where
  least_le : format.leastExponent ≤ exponent
  mantissa_lt : mantissa < 2 ^ (format.fractionBits + 1)
  leading : 2 ^ format.fractionBits ≤ mantissa ∨ exponent = format.leastExponent
  finite : format.magnitudeBits mantissa exponent < format.infinity

theorem value_eq_zero_iff : Magnitude.value ⟨mantissa, exponent⟩ = 0 ↔ mantissa = 0 := by
  simp [Magnitude.value, zpow_ne_zero]

/-- The last place of the rounded mantissa is that of the canonical one. -/
theorem Canonical.last_eq {numerator denominator : Nat}
    (canonical : format.Canonical mantissa exponent) (positive : 0 < numerator)
    (divides : 0 < denominator)
    (same : (numerator : ℚ) / denominator = Magnitude.value ⟨mantissa, exponent⟩) :
    max (binaryExponent numerator denominator - format.fractionBits) format.leastExponent =
      exponent := by
  obtain ⟨low, high⟩ := binaryExponent_bounds positive divides
  rw [same] at low high
  generalize binaryExponent numerator denominator = lead at low high
  have least := canonical.least_le
  have short : Magnitude.value ⟨mantissa, exponent⟩ < 2 ^ (format.fractionBits + exponent + 1) := by
    have fits : (mantissa : ℚ) < 2 ^ (format.fractionBits + 1) := by
      exact_mod_cast canonical.mantissa_lt
    calc Magnitude.value ⟨mantissa, exponent⟩
        < 2 ^ (format.fractionBits + 1) * 2 ^ exponent :=
          mul_lt_mul_of_pos_right fits (by positivity)
      _ = 2 ^ (format.fractionBits + exponent + 1) := by
          rw [← zpow_natCast, ← zpow_add₀ (by norm_num)]
          congr 1
          push_cast
          ring
  rcases canonical.leading with full | subnormal
  · have long : (2 : ℚ) ^ (format.fractionBits + exponent) ≤
        Magnitude.value ⟨mantissa, exponent⟩ := by
      have fills : (2 : ℚ) ^ format.fractionBits ≤ mantissa := by exact_mod_cast full
      rw [zpow_add₀ (by norm_num), zpow_natCast]
      exact mul_le_mul_of_nonneg_right fills (by positivity)
    have leads := zpow_interval_unique low high long short
    omega
  · have below : lead < format.fractionBits + exponent + 1 :=
      (zpow_lt_zpow_iff_right₀ (by norm_num)).mp (low.trans_lt short)
    omega

/-- A number of the format is rounded to itself. -/
theorem Canonical.roundScaled?_eq {scaled : Nat} {scale : Int}
    (canonical : format.Canonical mantissa exponent)
    (same : Magnitude.value ⟨scaled, scale⟩ = Magnitude.value ⟨mantissa, exponent⟩) :
    format.roundScaled? scaled scale = some (format.magnitudeBits mantissa exponent) := by
  unfold roundScaled? roundQuotient?
  by_cases nothing : scaled = 0
  · have none_left : mantissa = 0 := by rwa [value_eq_zero_iff.mpr nothing, eq_comm,
      value_eq_zero_iff] at same
    have least : exponent = format.leastExponent :=
      canonical.leading.resolve_left (by rw [none_left]; exact Nat.not_le.mpr (by positivity))
    rw [nothing, Nat.zero_mul, if_pos rfl, none_left, magnitudeBits, least, sub_self]
    simp
  · have positive : 0 < scaled * Nat.pow 2 scale.toNat :=
      Nat.mul_pos (Nat.pos_of_ne_zero nothing) (Nat.pow_pos (by decide))
    have divides : 0 < Nat.pow 2 (-scale).toNat := Nat.pow_pos (by decide)
    have quotient : ((scaled * Nat.pow 2 scale.toNat : Nat) : ℚ) /
        (Nat.pow 2 (-scale).toNat : Nat) = Magnitude.value ⟨mantissa, exponent⟩ :=
      (Magnitude.value_eq ⟨scaled, scale⟩).symm.trans same
    rw [if_neg positive.ne']
    dsimp only
    rw [canonical.last_eq positive divides quotient]
    -- On the scale of the canonical exponent the quotient is the canonical mantissa.
    have scaledUp : scaled * Nat.pow 2 scale.toNat * Nat.pow 2 (-exponent).toNat =
        mantissa * (Nat.pow 2 (-scale).toNat * Nat.pow 2 exponent.toNat) := by
      have power := zpow_eq_quotient 2 exponent
      rw [Nat.cast_ofNat] at power
      have left : ((Nat.pow 2 (-scale).toNat : Nat) : ℚ) ≠ 0 := by exact_mod_cast divides.ne'
      have right : ((Nat.pow 2 (-exponent).toNat : Nat) : ℚ) ≠ 0 := by
        exact_mod_cast (Nat.pow_pos (by decide) : 0 < Nat.pow 2 (-exponent).toNat).ne'
      rw [Magnitude.value, power, ← mul_div_assoc, div_eq_div_iff left right] at quotient
      have whole : scaled * Nat.pow 2 scale.toNat * Nat.pow 2 (-exponent).toNat =
          mantissa * Nat.pow 2 exponent.toNat * Nat.pow 2 (-scale).toNat := by
        exact_mod_cast quotient
      rw [whole]
      ring
    have scaleUp : 0 < Nat.pow 2 (-scale).toNat * Nat.pow 2 exponent.toNat :=
      Nat.mul_pos divides (Nat.pow_pos (by decide))
    rw [scaledUp, roundQuotient_exact scaleUp]
    exact if_pos canonical.finite

/-! ## Bits -/

theorem infinity_lt (format : Format) :
    format.infinity < 2 ^ (format.exponentBits + format.fractionBits) := by
  unfold infinity
  rw [Nat.pow_add]
  exact Nat.mul_lt_mul_of_pos_right (Nat.sub_lt (Nat.pow_pos (by decide)) Nat.one_pos)
    (Nat.pow_pos (by decide))

theorem exists_withSign {bits : Nat} (small : bits < 2 ^ format.width) :
    ∃ negative magnitude, magnitude < 2 ^ (format.exponentBits + format.fractionBits) ∧
      bits = format.withSign negative magnitude := by
  have whole : 2 ^ format.width = 2 * 2 ^ (format.exponentBits + format.fractionBits) := by
    rw [width, Nat.add_assoc, Nat.pow_add, Nat.pow_one]
  by_cases signed : 2 ^ (format.exponentBits + format.fractionBits) ≤ bits
  · refine ⟨true, bits - 2 ^ (format.exponentBits + format.fractionBits), by omega, ?_⟩
    exact (Nat.add_sub_cancel' signed).symm
  · exact ⟨false, bits, not_le.mp signed, rfl⟩

theorem withSign_lt (negative : Bool)
    (inside : magnitude < 2 ^ (format.exponentBits + format.fractionBits)) :
    format.withSign negative magnitude < 2 ^ format.width := by
  have whole : 2 ^ format.width = 2 * 2 ^ (format.exponentBits + format.fractionBits) := by
    rw [width, Nat.add_assoc, Nat.pow_add, Nat.pow_one]
  unfold withSign
  cases negative with
  | false => exact inside.trans (by omega)
  | true =>
      change 2 ^ (format.exponentBits + format.fractionBits) + magnitude < _
      omega

/-- What the fields of a pattern denote, behind its sign. -/
theorem decode_withSign (negative : Bool)
    (inside : magnitude < 2 ^ (format.exponentBits + format.fractionBits)) :
    format.decode (format.withSign negative magnitude) =
      if magnitude / 2 ^ format.fractionBits = 2 ^ format.exponentBits - 1 then
        if magnitude % 2 ^ format.fractionBits = 0 then .infinite negative
        else .notANumber negative (magnitude % 2 ^ format.fractionBits)
      else if magnitude / 2 ^ format.fractionBits = 0 then
        .finite negative (magnitude % 2 ^ format.fractionBits) format.leastExponent
      else
        .finite negative (2 ^ format.fractionBits + magnitude % 2 ^ format.fractionBits)
          (format.leastExponent + (magnitude / 2 ^ format.fractionBits - 1 : Nat)) := by
  have field : magnitude / 2 ^ format.fractionBits < 2 ^ format.exponentBits := by
    rw [Nat.pow_add] at inside
    exact Nat.div_lt_of_lt_mul (by rwa [Nat.mul_comm])
  have positive : 0 < 2 ^ format.fractionBits := Nat.pow_pos (by decide)
  have sign : (format.withSign negative magnitude /
      Nat.pow 2 (format.exponentBits + format.fractionBits) % 2 == 1) = negative := by
    cases negative with
    | false => simp [withSign, Nat.div_eq_of_lt inside]
    | true => simp [withSign, Nat.add_div_left, Nat.div_eq_of_lt inside]
  have biased : format.withSign negative magnitude / Nat.pow 2 format.fractionBits %
      Nat.pow 2 format.exponentBits = magnitude / 2 ^ format.fractionBits := by
    cases negative with
    | false => exact Nat.mod_eq_of_lt field
    | true =>
        change (2 ^ (format.exponentBits + format.fractionBits) + magnitude) /
          2 ^ format.fractionBits % 2 ^ format.exponentBits = _
        rw [Nat.pow_add, Nat.mul_comm, Nat.mul_add_div positive, Nat.add_mod_left,
          Nat.mod_eq_of_lt field]
  have fraction : format.withSign negative magnitude % Nat.pow 2 format.fractionBits =
      magnitude % 2 ^ format.fractionBits := by
    cases negative with
    | false => rfl
    | true =>
        change (2 ^ (format.exponentBits + format.fractionBits) + magnitude) %
          2 ^ format.fractionBits = _
        rw [Nat.pow_add, Nat.mul_comm, Nat.mul_add_mod]
  unfold decode
  rw [sign, biased, fraction]
  rfl

/-- A canonical mantissa and exponent are read back from their pattern, whatever the sign in front
of it. -/
theorem Canonical.decode_eq (canonical : format.Canonical mantissa exponent) (negative : Bool) :
    format.decode (format.withSign negative (format.magnitudeBits mantissa exponent)) =
      .finite negative mantissa exponent := by
  have least := canonical.least_le
  have short := canonical.mantissa_lt
  have finite := canonical.finite
  have positive : 0 < 2 ^ format.fractionBits := Nat.pow_pos (by decide)
  rw [decode_withSign negative (finite.trans format.infinity_lt)]
  have field : format.magnitudeBits mantissa exponent / 2 ^ format.fractionBits <
      2 ^ format.exponentBits - 1 := Nat.div_lt_of_lt_mul (by rwa [Nat.mul_comm])
  rw [if_neg field.ne]
  unfold magnitudeBits
  rw [Nat.mul_add_mod', Nat.mul_comm, Nat.mul_add_div positive]
  rw [Nat.pow_succ] at short
  by_cases full : 2 ^ format.fractionBits ≤ mantissa
  · have quotient : mantissa / 2 ^ format.fractionBits = 1 := by
      apply Nat.div_eq_of_lt_le <;> omega
    have rest := Nat.div_add_mod mantissa (2 ^ format.fractionBits)
    rw [quotient, Nat.mul_one] at rest
    rw [quotient, if_neg (by omega), rest, Nat.add_sub_cancel]
    congr 1
    omega
  · have same := canonical.leading.resolve_left full
    rw [Nat.div_eq_of_lt (not_le.mp full), Nat.mod_eq_of_lt (not_le.mp full), same, sub_self]
    rfl

/-- The pattern of a finite number is told by its sign, its mantissa and its exponent. -/
theorem canonical_of_decode {bits : Nat} (small : bits < 2 ^ format.width)
    (finite : format.decode bits = .finite negative mantissa exponent) :
    format.Canonical mantissa exponent ∧
      bits = format.withSign negative (format.magnitudeBits mantissa exponent) := by
  obtain ⟨sign, magnitude, inside, rfl⟩ := exists_withSign small
  have parts := Nat.div_add_mod' magnitude (2 ^ format.fractionBits)
  have rest := Nat.mod_lt magnitude (Nat.pow_pos (by decide) : 0 < 2 ^ format.fractionBits)
  have field : magnitude / 2 ^ format.fractionBits < 2 ^ format.exponentBits := by
    rw [Nat.pow_add] at inside
    exact Nat.div_lt_of_lt_mul (by rwa [Nat.mul_comm])
  have bounded (less : magnitude / 2 ^ format.fractionBits ≠ 2 ^ format.exponentBits - 1) :
      magnitude < format.infinity :=
    (Nat.div_lt_iff_lt_mul (Nat.pow_pos (by decide))).mp
      (lt_of_le_of_ne (Nat.le_sub_one_of_lt field) less)
  rw [decode_withSign sign inside] at finite
  split at finite
  · split at finite <;> cases finite
  · rename_i less
    split at finite
    · rename_i subnormal
      cases finite
      rw [subnormal, Nat.zero_mul, Nat.zero_add] at parts
      have bits : format.magnitudeBits (magnitude % 2 ^ format.fractionBits) format.leastExponent =
          magnitude := by
        rw [magnitudeBits, sub_self, parts]
        simp
      refine ⟨⟨le_rfl, ?_, .inr rfl, by rw [bits]; exact bounded less⟩, by rw [bits]⟩
      rw [Nat.pow_succ]
      omega
    · rename_i normal
      cases finite
      have bits :
          format.magnitudeBits (2 ^ format.fractionBits + magnitude % 2 ^ format.fractionBits)
            (format.leastExponent + (magnitude / 2 ^ format.fractionBits - 1 : Nat)) =
              magnitude := by
        obtain ⟨biased, same⟩ := Nat.exists_eq_succ_of_ne_zero normal
        rw [same, Nat.succ_mul] at parts
        rw [magnitudeBits, same, add_sub_cancel_left, Int.toNat_natCast, Nat.succ_sub_one]
        omega
      refine ⟨⟨by omega, ?_, .inl (Nat.le_add_right _ _), by rw [bits]; exact bounded less⟩,
        by rw [bits]⟩
      rw [Nat.pow_succ]
      omega

/-! ## Widening and narrowing -/

private theorem Canonical.exponent_bounds (narrow : format = half ∨ format = single)
    (canonical : format.Canonical mantissa exponent) :
    mantissa < 2 ^ 24 ∧ -149 ≤ exponent ∧ exponent ≤ 105 := by
  obtain ⟨least, short, -, finite⟩ := canonical
  unfold magnitudeBits infinity at finite
  have scaled : (exponent - format.leastExponent).toNat * 2 ^ format.fractionBits <
      (2 ^ format.exponentBits - 1) * 2 ^ format.fractionBits :=
    (Nat.le_add_right _ mantissa).trans_lt finite
  have field := Nat.lt_of_mul_lt_mul_right scaled
  rcases narrow with rfl | rfl
  · have lowest : half.leastExponent = -24 := by decide
    have fields : 2 ^ half.exponentBits - 1 = 31 := by decide
    have bits : 2 ^ (half.fractionBits + 1) = 2 ^ 11 := rfl
    omega
  · have lowest : single.leastExponent = -149 := by decide
    have fields : 2 ^ single.exponentBits - 1 = 255 := by decide
    have bits : 2 ^ (single.fractionBits + 1) = 2 ^ 24 := rfl
    omega

/-- Every number of a narrow format is one of the wide format, so widening loses nothing. -/
theorem Canonical.exists_double (narrow : format = half ∨ format = single)
    (canonical : format.Canonical mantissa exponent) :
    ∃ wide scale, double.Canonical wide scale ∧
      Magnitude.value ⟨wide, scale⟩ = Magnitude.value ⟨mantissa, exponent⟩ := by
  obtain ⟨small, low, high⟩ := canonical.exponent_bounds narrow
  by_cases nothing : mantissa = 0
  · refine ⟨0, double.leastExponent, ⟨le_rfl, by decide, .inr rfl, by decide⟩, ?_⟩
    rw [value_eq_zero_iff.mpr rfl, value_eq_zero_iff.mpr nothing]
  · have digits : mantissa.log2 < 24 := (Nat.log2_lt nothing).mpr small
    obtain ⟨shift, sum⟩ : ∃ shift, mantissa.log2 + shift = 52 :=
      ⟨52 - mantissa.log2, by omega⟩
    have leading : 2 ^ 52 ≤ mantissa * 2 ^ shift := by
      rw [← sum, Nat.pow_add]
      exact Nat.mul_le_mul_right _ (Nat.log2_self_le nothing)
    have fits : mantissa * 2 ^ shift < 2 ^ 53 := by
      have next : 53 = mantissa.log2 + 1 + shift := by omega
      rw [next, Nat.pow_add]
      exact Nat.mul_lt_mul_of_pos_right Nat.lt_log2_self (Nat.pow_pos (by decide))
    have lowest : double.leastExponent = -1074 := by decide
    refine ⟨mantissa * 2 ^ shift, exponent - shift, ⟨by omega, fits, .inl leading, ?_⟩, ?_⟩
    · have bits : double.fractionBits = 52 := rfl
      have top : double.infinity = 2047 * 2 ^ 52 := by decide
      rw [magnitudeBits, lowest, bits, top]
      omega
    · rw [Magnitude.value, Magnitude.value, zpow_sub₀ (by norm_num), zpow_natCast]
      push_cast
      field_simp

private theorem twice_quietBit (fractions : 0 < format.fractionBits) :
    2 ^ format.fractionBits = format.quietBit + format.quietBit := by
  obtain ⟨more, same⟩ := Nat.exists_eq_succ_of_ne_zero fractions.ne'
  rw [quietBit, same, Nat.pow_succ, Nat.succ_sub_one]
  exact Nat.mul_two _

private theorem quiet_lt (fractions : 0 < format.fractionBits) {rest : Nat}
    (behind : rest < format.quietBit) :
    format.infinity + format.quietBit + rest <
      2 ^ (format.exponentBits + format.fractionBits) := by
  have twice := twice_quietBit fractions
  obtain ⟨fields, same⟩ := Nat.exists_eq_succ_of_ne_zero
    (Nat.pow_pos (by decide) : 0 < 2 ^ format.exponentBits).ne'
  rw [infinity, Nat.pow_eq, Nat.pow_eq, Nat.pow_add, same, Nat.succ_sub_one, Nat.succ_mul]
  omega

/-- The quiet bit is set, with `rest` behind it. -/
theorem decode_quiet (fractions : 0 < format.fractionBits) (negative : Bool) {rest : Nat}
    (behind : rest < format.quietBit) :
    format.decode (format.withSign negative (format.infinity + format.quietBit + rest)) =
      .notANumber negative (format.quietBit + rest) := by
  have twice := twice_quietBit fractions
  have positive : 0 < 2 ^ format.fractionBits := Nat.pow_pos (by decide)
  have split : format.infinity + format.quietBit + rest =
      2 ^ format.fractionBits * (2 ^ format.exponentBits - 1) + (format.quietBit + rest) := by
    rw [infinity, Nat.mul_comm, Nat.add_assoc]
    rfl
  have marked : 0 < format.quietBit := Nat.pow_pos (by decide)
  rw [decode_withSign negative (quiet_lt fractions behind), split, Nat.mul_add_div positive,
    Nat.mul_add_mod, Nat.div_eq_of_lt (by omega), Nat.mod_eq_of_lt (by omega), Nat.add_zero,
    if_pos rfl, if_neg (by omega)]

theorem decode_infinity (format : Format) (negative : Bool) :
    format.decode (format.withSign negative format.infinity) = .infinite negative := by
  have positive : 0 < 2 ^ format.fractionBits := Nat.pow_pos (by decide)
  rw [decode_withSign negative format.infinity_lt]
  unfold infinity
  rw [Nat.pow_eq, Nat.pow_eq, Nat.mul_div_cancel _ positive, if_pos rfl, Nat.mul_mod_left,
    if_pos rfl]

/-- The part of a fraction that is kept in a wider or narrower format, if any is. -/
def leadingPart (format : Format) (fraction : Nat) : Nat :=
  if format.fractionBits < 20 then 0 else fraction % format.quietBit

theorem leadingPart_lt (format : Format) (fraction : Nat) :
    format.leadingPart fraction < format.quietBit := by
  unfold leadingPart
  split
  · exact Nat.pow_pos (by decide)
  · exact Nat.mod_lt _ (Nat.pow_pos (by decide))

theorem leadingPart_quiet (format : Format) (fraction : Nat) :
    format.leadingPart (format.quietBit + format.leadingPart fraction) =
      format.leadingPart fraction := by
  unfold leadingPart
  split
  · rfl
  · rw [Nat.add_mod_left, Nat.mod_mod]

private theorem quietBit_double
    (fractions : 0 < format.fractionBits ∧ format.fractionBits ≤ double.fractionBits) :
    double.quietBit = format.quietBit * 2 ^ (double.fractionBits - format.fractionBits) := by
  have bits : double.fractionBits = 52 := rfl
  rw [bits] at fractions ⊢
  rw [quietBit, quietBit, bits, Nat.pow_eq, Nat.pow_eq, ← Nat.pow_add]
  congr 1
  omega

private theorem scaled_leadingPart_lt
    (fractions : 0 < format.fractionBits ∧ format.fractionBits ≤ double.fractionBits)
    (fraction : Nat) :
    format.leadingPart fraction * 2 ^ (double.fractionBits - format.fractionBits) <
      double.quietBit := by
  rw [quietBit_double fractions]
  exact Nat.mul_lt_mul_of_pos_right (leadingPart_lt format fraction) (Nat.pow_pos (by decide))

private theorem widen_notANumber {bits fraction : Nat}
    (decoded : format.decode bits = .notANumber negative fraction) :
    format.widen bits = double.withSign negative (double.infinity + double.quietBit +
      format.leadingPart fraction * 2 ^ (double.fractionBits - format.fractionBits)) := by
  unfold widen leadingPart
  rw [decoded]
  dsimp only
  split
  · rw [Nat.zero_mul]
  · rfl

private theorem narrow?_notANumber
    (fractions : 0 < format.fractionBits ∧ format.fractionBits ≤ double.fractionBits)
    (fraction : Nat) :
    format.narrow? (.notANumber negative (double.quietBit +
        format.leadingPart fraction * 2 ^ (double.fractionBits - format.fractionBits))) =
      some (format.withSign negative
        (format.infinity + format.quietBit + format.leadingPart fraction)) := by
  have small := leadingPart_lt format fraction
  have positive : 0 < 2 ^ (double.fractionBits - format.fractionBits) := Nat.pow_pos (by decide)
  rw [quietBit_double fractions, ← Nat.add_mul]
  unfold narrow?
  dsimp only
  split
  · rename_i short
    rw [leadingPart, if_pos short]
  · rw [Nat.pow_eq, Nat.mul_div_cancel _ positive, Nat.add_mod_left, Nat.mod_eq_of_lt small]

/-- A pattern that was widened is narrowed to one that means the same. It is the pattern itself,
unless that was no number and had no quiet bit. -/
theorem narrow?_decode_widen (narrow : format = half ∨ format = single) {bits : Nat}
    (small : bits < 2 ^ format.width) :
    format.widen bits < 2 ^ double.width ∧
      ∃ again, format.narrow? (double.decode (format.widen bits)) = some again ∧
        again < 2 ^ format.width ∧ format.widen again = format.widen bits := by
  cases decoded : format.decode bits with
  | finite negative mantissa exponent =>
      obtain ⟨canonical, pattern⟩ := canonical_of_decode small decoded
      obtain ⟨wide, scale, exact, same⟩ := canonical.exists_double narrow
      have widened : format.widen bits =
          double.withSign negative (double.magnitudeBits wide scale) := by
        simp only [widen, decoded, exact.roundScaled?_eq same.symm, Option.getD_some]
      refine ⟨?_, bits, ?_, small, rfl⟩
      · rw [widened]
        exact withSign_lt negative (exact.finite.trans double.infinity_lt)
      · rw [widened, exact.decode_eq, narrow?, canonical.roundScaled?_eq same, Option.map_some,
          ← pattern]
  | infinite negative =>
      have widened : format.widen bits = double.withSign negative double.infinity := by
        simp only [widen, decoded]
      refine ⟨?_, format.withSign negative format.infinity, ?_,
        withSign_lt negative format.infinity_lt, ?_⟩
      · rw [widened]
        exact withSign_lt negative double.infinity_lt
      · rw [widened, decode_infinity, narrow?]
      · rw [widened, widen, decode_infinity]
  | notANumber negative fraction =>
      have fractions : 0 < format.fractionBits ∧ format.fractionBits ≤ double.fractionBits := by
        rcases narrow with rfl | rfl <;> decide
      have part := leadingPart_lt format fraction
      have quiet := decode_quiet fractions.1 negative part
      have scaled := scaled_leadingPart_lt fractions fraction
      refine ⟨?_, format.withSign negative
        (format.infinity + format.quietBit + format.leadingPart fraction), ?_, ?_, ?_⟩
      · rw [widen_notANumber decoded]
        exact withSign_lt negative (quiet_lt (by decide) scaled)
      · rw [widen_notANumber decoded, decode_quiet (by decide) negative scaled,
          narrow?_notANumber fractions]
      · exact withSign_lt negative (quiet_lt fractions.1 part)
      · rw [widen_notANumber quiet, leadingPart_quiet, widen_notANumber decoded]

end Format

end LexKit.Real
