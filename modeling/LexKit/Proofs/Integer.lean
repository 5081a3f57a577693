import LexKit.Proofs.Number
import Mathlib.Data.Nat.Digits.Defs

/-!
# Integers in decimal

Text and bytes are read as an integer if and only if they are decimal digits, behind one minus sign
or none. Each digit counts by its place, so zeros in front add nothing, and there may be any number
of digits. What is written for an integer is read as the same integer again.
-/

set_option autoImplicit false

namespace LexKit

variable {Letter : Type}

/-- Decimal digits and the number that they denote. The last digit counts once, and every other one
ten times as much as the one behind it. -/
def DenotesNatural (letterOf : Nat → Letter) (text : List Letter) (number : Nat) : Prop :=
  ∃ digits : List Nat, digits ≠ [] ∧ (∀ digit ∈ digits, digit < 10) ∧
    text = digits.map letterOf ∧ number = Nat.ofDigits 10 digits.reverse

/-- The digits of a natural number, or these behind a minus sign for the opposite number. -/
inductive DenotesInteger (minus : Letter) (letterOf : Nat → Letter) : List Letter → Int → Prop where
  | natural {text : List Letter} {number : Nat} (digits : DenotesNatural letterOf text number) :
      DenotesInteger minus letterOf text number
  | negated {text : List Letter} {number : Nat} (digits : DenotesNatural letterOf text number) :
      DenotesInteger minus letterOf (minus :: text) (-number)

section Letters

variable {Code : Type} {translate : Code → Letter} {minus : Letter} {minusCode : Code}
  {letterOf : Nat → Letter} {codeOf : Nat → Code} {codes : List Code}

theorem map_eq_map_digits (same : ∀ digit < 10, ∀ code, translate code = letterOf digit ↔
    code = codeOf digit) {digits : List Nat} (decimal : ∀ digit ∈ digits, digit < 10) :
    codes.map translate = digits.map letterOf ↔ codes = digits.map codeOf := by
  induction digits generalizing codes with
  | nil => simp
  | cons digit rest ih =>
      cases codes with
      | nil => simp
      | cons code codes =>
          have first := same digit (decimal digit List.mem_cons_self) code
          have later : codes.map translate = rest.map letterOf ↔ codes = rest.map codeOf :=
            ih fun other member => decimal other (List.mem_cons_of_mem digit member)
          simp [first, later]

/-- What digits denote does not depend on what they are written in. -/
theorem denotesNatural_map (same : ∀ digit < 10, ∀ code, translate code = letterOf digit ↔
    code = codeOf digit) {number : Nat} :
    DenotesNatural letterOf (codes.map translate) number ↔ DenotesNatural codeOf codes number := by
  constructor
  · rintro ⟨digits, nonempty, decimal, split, value⟩
    exact ⟨digits, nonempty, decimal, (map_eq_map_digits same decimal).mp split, value⟩
  · rintro ⟨digits, nonempty, decimal, split, value⟩
    exact ⟨digits, nonempty, decimal, (map_eq_map_digits same decimal).mpr split, value⟩

/-- What an integer denotes does not depend on the code of its characters, if minus sign and digits
are the only ones that are translated to theirs. Text and bytes are two such codes. -/
theorem denotesInteger_map (same_minus : ∀ code, translate code = minus ↔ code = minusCode)
    (same : ∀ digit < 10, ∀ code, translate code = letterOf digit ↔ code = codeOf digit)
    {value : Int} :
    DenotesInteger minus letterOf (codes.map translate) value ↔
      DenotesInteger minusCode codeOf codes value := by
  constructor
  · intro denotes
    generalize translated : codes.map translate = text at denotes
    cases denotes with
    | natural digits =>
        subst translated
        exact .natural ((denotesNatural_map same).mp digits)
    | negated digits =>
        obtain ⟨code, rest, rfl, sign, rfl⟩ := List.map_eq_cons_iff.mp translated
        obtain rfl := (same_minus code).mp sign
        exact .negated ((denotesNatural_map same).mp digits)
  · intro denotes
    cases denotes with
    | natural digits => exact .natural ((denotesNatural_map same).mpr digits)
    | negated digits =>
        rw [List.map_cons, (same_minus minusCode).mpr rfl]
        exact .negated ((denotesNatural_map same).mpr digits)

end Letters

namespace Byte

def ofDigit (digit : Nat) : UInt8 :=
  UInt8.ofNat (0x30 + digit)

end Byte

namespace Numeral

variable {char : Char} {chars body : List Char} {negative : Bool} {numeral : Numeral}

theorem digitValue_of_isDigit (digit : isDigit char = true) :
    digitValue char < 10 ∧ Nat.digitChar (digitValue char) = char := by
  have bounds : 48 ≤ char.toNat ∧ char.toNat ≤ 57 := by
    rwa [isDigit, Bool.and_eq_true, decide_eq_true_eq, decide_eq_true_eq] at digit
  have small : digitValue char < 10 := by
    unfold digitValue
    omega
  refine ⟨small, Char.toNat_inj.mp ?_⟩
  rw [Nat.toNat_digitChar_of_lt_ten small]
  unfold digitValue
  omega

theorem digitChar_of_lt_ten {digit : Nat} (small : digit < 10) :
    isDigit (Nat.digitChar digit) = true ∧ digitValue (Nat.digitChar digit) = digit := by
  constructor
  · have shaped : (Nat.digitChar digit).isDigit = true := by simp [small]
    exact shaped
  · rw [digitValue, Nat.toNat_digitChar_of_lt_ten small, Nat.add_sub_cancel_left]

theorem denotesNatural_iff {number : Nat} :
    DenotesNatural Nat.digitChar body number ↔
      body ≠ [] ∧ (∀ char ∈ body, isDigit char = true) ∧
        number = Nat.ofDigits 10 (body.map digitValue).reverse := by
  constructor
  · rintro ⟨digits, nonempty, decimal, rfl, rfl⟩
    have values : (digits.map Nat.digitChar).map digitValue = digits := by
      rw [List.map_map]
      exact (List.map_congr_left fun digit member =>
        (digitChar_of_lt_ten (decimal digit member)).2).trans (List.map_id' digits)
    refine ⟨by simpa using nonempty, ?_, by rw [values]⟩
    intro char member
    obtain ⟨digit, known, rfl⟩ := List.mem_map.mp member
    exact (digitChar_of_lt_ten (decimal digit known)).1
  · rintro ⟨nonempty, shaped, rfl⟩
    refine ⟨body.map digitValue, by simpa using nonempty, ?_, ?_, rfl⟩
    · intro digit member
      obtain ⟨char, known, rfl⟩ := List.mem_map.mp member
      exact (digitValue_of_isDigit (shaped char known)).1
    · rw [List.map_map]
      exact ((List.map_congr_left fun char member =>
        (digitValue_of_isDigit (shaped char member)).2).trans (List.map_id' body)).symm

/-- Taking the digits from the first one on comes to the same as weighing each by its place. -/
theorem foldl_eq_ofDigits (digits : List Nat) :
    digits.foldl (fun value digit => value * 10 + digit) 0 = Nat.ofDigits 10 digits.reverse := by
  rw [Nat.ofDigits_eq_foldr, List.foldr_reverse]
  congr 1
  funext value digit
  rw [Nat.cast_id, Nat.mul_comm, Nat.add_comm]

theorem toInt_whole (digits : List Nat) :
    toInt ⟨negative, digits, [], false⟩ =
      let number : Nat := Nat.ofDigits 10 digits.reverse
      if negative then -(number : Int) else number := by
  rw [← foldl_eq_ofDigits]
  rfl

/-! ## Texts with and without a point -/

theorem ofUnsigned?_cases (found : ofUnsigned? negative body = some numeral) :
    (body ≠ [] ∧ (∀ char ∈ body, isDigit char = true) ∧
      numeral = ⟨negative, body.map digitValue, [], false⟩) ∨
    ('.' ∈ body ∧ numeral.hasPoint = true) := by
  have formed : IsUnsignedDecimal '.' isDigit body :=
    ofUnsigned?_isSome_iff.mp (Option.isSome_iff_exists.mpr ⟨numeral, found⟩)
  rcases (isUnsignedDecimal_iff rfl).mp formed with
    ⟨nonempty, digits⟩ | ⟨whole, fraction, rfl, digits, behind, nonempty⟩
  · rw [ofUnsigned?_whole nonempty digits] at found
    exact .inl ⟨nonempty, digits, (Option.some.inj found).symm⟩
  · rw [ofUnsigned?_pointed nonempty digits behind] at found
    cases found
    exact .inr ⟨by simp, rfl⟩

theorem ofUnsigned?_hasPoint (found : ofUnsigned? negative body = some numeral) :
    numeral.hasPoint = true ↔ '.' ∈ body := by
  rcases ofUnsigned?_cases found with ⟨-, digits, rfl⟩ | ⟨pointed, marked⟩
  · have unpointed : '.' ∉ body := fun member => absurd (digits '.' member) (by decide)
    simp [unpointed]
  · simp [pointed, marked]

theorem ofChars?_cases (found : ofChars? chars = some numeral) :
    (∃ body, chars = '-' :: body ∧ ofUnsigned? true body = some numeral) ∨
      ofUnsigned? false chars = some numeral := by
  unfold ofChars? at found
  split at found
  · exact .inl ⟨_, rfl, found⟩
  · exact .inr found

theorem ofChars?_of_digits (digits : ∀ char ∈ chars, isDigit char = true) :
    ofChars? chars = ofUnsigned? false chars := by
  unfold ofChars?
  split
  · exact absurd (digits '-' List.mem_cons_self) (by decide)
  · rfl

/-- A numeral has a point if its text has one. -/
theorem ofChars?_hasPoint (found : ofChars? chars = some numeral) :
    numeral.hasPoint = true ↔ '.' ∈ chars := by
  rcases ofChars?_cases found with ⟨body, rfl, unsigned⟩ | unsigned
  · simp [ofUnsigned?_hasPoint unsigned]
  · exact ofUnsigned?_hasPoint unsigned

/-- Digits without a point are read as the number that they denote, with the sign that stood in
front. -/
theorem ofUnsigned?_toInt (found : ofUnsigned? negative body = some numeral)
    (unpointed : numeral.hasPoint = false) :
    ∃ number : Nat, DenotesNatural Nat.digitChar body number ∧
      numeral.toInt = if negative then -(number : Int) else number := by
  rcases ofUnsigned?_cases found with ⟨nonempty, digits, rfl⟩ | ⟨-, pointed⟩
  · exact ⟨_, denotesNatural_iff.mpr ⟨nonempty, digits, rfl⟩, toInt_whole _⟩
  · rw [unpointed] at pointed
    cases pointed

end Numeral

namespace Number

open Numeral

variable {chars : List Char} {value : Int}

theorem parseInt?_eq_some_iff : parseInt? chars = some value ↔
    ∃ numeral, ofChars? chars = some numeral ∧ numeral.hasPoint = false ∧
      numeral.toInt = value := by
  unfold parseInt?
  cases ofChars? chars with
  | none => simp
  | some numeral => cases pointed : numeral.hasPoint <;> simp [pointed]

theorem parseInt?_of_denotes (denotes : DenotesInteger '-' Nat.digitChar chars value) :
    parseInt? chars = some value := by
  rw [parseInt?_eq_some_iff]
  cases denotes with
  | natural digits =>
      obtain ⟨nonempty, shaped, rfl⟩ := denotesNatural_iff.mp digits
      refine ⟨⟨false, chars.map digitValue, [], false⟩, ?_, rfl, toInt_whole _⟩
      rw [ofChars?_of_digits shaped, ofUnsigned?_whole nonempty shaped]
  | negated digits =>
      obtain ⟨nonempty, shaped, rfl⟩ := denotesNatural_iff.mp digits
      exact ⟨_, ofUnsigned?_whole nonempty shaped, rfl, toInt_whole _⟩

/-- Text is read as an integer if and only if it denotes one. -/
theorem parseInt?_iff_denotes :
    parseInt? chars = some value ↔ DenotesInteger '-' Nat.digitChar chars value := by
  constructor
  · intro parsed
    obtain ⟨numeral, found, unpointed, rfl⟩ := parseInt?_eq_some_iff.mp parsed
    rcases ofChars?_cases found with ⟨body, rfl, unsigned⟩ | unsigned
    · obtain ⟨number, digits, same⟩ := ofUnsigned?_toInt unsigned unpointed
      rw [same]
      exact .negated digits
    · obtain ⟨number, digits, same⟩ := ofUnsigned?_toInt unsigned unpointed
      rw [same]
      exact .natural digits
  · exact parseInt?_of_denotes

/-- Of the texts of numbers, those without a point are the texts of integers. -/
theorem parseInt?_isSome_iff : (parseInt? chars).isSome = true ↔
    (parseFloat? chars).isSome = true ∧ '.' ∉ chars := by
  unfold parseInt? parseFloat?
  cases found : ofChars? chars with
  | none => simp
  | some numeral =>
      have pointed := ofChars?_hasPoint found
      cases marked : numeral.hasPoint <;> simpa [marked] using pointed

/-! ## Bytes -/

theorem decodeAscii_digit {digit : Nat} (small : digit < 10) (byte : UInt8) :
    (if byte < 0x80 then Char.ofNat byte.toNat else Utf8.replacement) = Nat.digitChar digit ↔
      byte = Byte.ofDigit digit := by
  have code := Nat.toNat_digitChar_of_lt_ten small
  rw [Utf8.ascii_eq_iff (by omega), code, Byte.ofDigit]

theorem denotesInteger_decodeAscii {bytes : Bytes} {value : Int} :
    DenotesInteger '-' Nat.digitChar (Utf8.decodeAscii bytes) value ↔
      DenotesInteger 0x2D Byte.ofDigit bytes value :=
  denotesInteger_map (Utf8.ascii_eq_iff (by decide)) fun _ small => decodeAscii_digit small

theorem point_mem_decodeAscii {bytes : Bytes} :
    '.' ∈ Utf8.decodeAscii bytes ↔ Byte.point ∈ bytes := by
  have point : ∀ byte : UInt8, (if byte < 0x80 then Char.ofNat byte.toNat else Utf8.replacement) =
      '.' ↔ byte = Byte.point := Utf8.ascii_eq_iff (by decide)
  simp only [Utf8.decodeAscii, List.mem_map, point, exists_eq_right]

/-! ## Writing -/

theorem denotesNatural_toDigits (number : Nat) :
    DenotesNatural Nat.digitChar (Nat.toDigits 10 number) number := by
  refine denotesNatural_iff.mpr
    ⟨Nat.toDigits_ne_nil, fun _ member => Real.isDigit_of_mem_toDigits member, ?_⟩
  rw [← foldl_eq_ofDigits, List.foldl_map]
  conv_lhs => rw [← @Nat.ofDigitChars_ten_toDigits number, Nat.ofDigitChars_eq_foldl]
  congr 1
  funext value char
  rw [Nat.mul_comm]
  rfl

theorem denotesInteger_toString (value : Int) :
    DenotesInteger '-' Nat.digitChar (toString value).toList value := by
  cases value with
  | ofNat number =>
      have text : (toString (Int.ofNat number)).toList = Nat.toDigits 10 number :=
        Nat.toList_repr
      rw [text]
      exact .natural (denotesNatural_toDigits number)
  | negSucc number =>
      have text : (toString (Int.negSucc number)).toList = '-' :: Nat.toDigits 10 (number + 1) := by
        rw [Int.toString_eq_repr, Int.repr, String.toList_append, Nat.toList_repr]
        rfl
      rw [text]
      exact .negated (denotesNatural_toDigits (number + 1))

theorem integerLiteral?_of_digitCount {value : Int}
    (few : Real.digitCount value.natAbs ≤ Text.digitLimit) :
    integerLiteral? value = some (toString value) := by
  have small {limit : Nat} (few : Real.digitCount value.natAbs ≤ limit) :
      value.natAbs < Nat.pow 10 limit :=
    (Real.lt_pow_digitCount value.natAbs).trans_le (Nat.pow_le_pow_right (by decide) few)
  exact if_pos (small few)

/-- Text is read as an integer if and only if it denotes this integer, and so are bytes. Of what is
read as a number, this is all that has no point. An integer of at most 4300 digits is written as
text that is read as this integer. -/
theorem integers_read_and_written :
    (∀ chars : List Char,
      (∀ value, parseInt? chars = some value ↔ DenotesInteger '-' Nat.digitChar chars value) ∧
      ((parseInt? chars).isSome = true ↔ (parseFloat? chars).isSome = true ∧ '.' ∉ chars)) ∧
    (∀ bytes : Bytes,
      (∀ value, parseInt? (Utf8.decodeAscii bytes) = some value ↔
        DenotesInteger 0x2D Byte.ofDigit bytes value) ∧
      ((parseInt? (Utf8.decodeAscii bytes)).isSome = true ↔
        (parseFloat? (Utf8.decodeAscii bytes)).isSome = true ∧ Byte.point ∉ bytes)) ∧
    ∀ value : Int, Real.digitCount value.natAbs ≤ 4300 →
      ∃ text, integerLiteral? value = some text ∧ parseInt? text.toList = some value := by
  refine ⟨fun chars => ⟨fun value => parseInt?_iff_denotes, parseInt?_isSome_iff⟩,
    fun bytes => ⟨fun value => ?_, ?_⟩, fun value few => ?_⟩
  · rw [parseInt?_iff_denotes, denotesInteger_decodeAscii]
  · rw [parseInt?_isSome_iff, point_mem_decodeAscii]
  · exact ⟨toString value, integerLiteral?_of_digitCount few,
      parseInt?_of_denotes (denotesInteger_toString value)⟩

/-- Zeros in front of a digit, in characters and in bytes, and the least integer of 4300 digits. -/
theorem integers_read_and_written_longest :
    parseInt? ['-', '0', '0', '7'] = some (-7) ∧
      parseInt? (Utf8.decodeAscii [0x2D, 0x30, 0x30, 0x37]) = some (-7) ∧
      Real.digitCount (1 - 10 ^ 4300 : Int).natAbs ≤ 4300 ∧
      ∃ text, integerLiteral? (1 - 10 ^ 4300) = some text ∧
        parseInt? text.toList = some (1 - 10 ^ 4300) := by
  have longest (count : Nat) (positive : 0 < count) :
      Real.digitCount (1 - 10 ^ count : Int).natAbs ≤ count := by
    refine (Nat.length_toDigits_le_iff (by decide) positive).mpr ?_
    have power : ((10 ^ count : Nat) : Int) = 10 ^ count := by simp
    have weight : 0 < 10 ^ count := Nat.pow_pos (by decide)
    omega
  obtain ⟨characters, bytes, written⟩ := integers_read_and_written
  have seven {Letter : Type} (minus : Letter) (letterOf : Nat → Letter) :
      DenotesInteger minus letterOf (minus :: [0, 0, 7].map letterOf) (-7) :=
    .negated ⟨[0, 0, 7], by decide, by decide, rfl, rfl⟩
  have few := longest 4300 (by decide)
  exact ⟨((characters _).1 _).mpr (seven '-' Nat.digitChar),
    ((bytes _).1 _).mpr (seven 0x2D Byte.ofDigit), few, written _ few⟩

end Number

end LexKit
