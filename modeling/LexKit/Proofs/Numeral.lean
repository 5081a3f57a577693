import LexKit.Number
import LexKit.Text.Utf8
import Mathlib.Data.List.TakeWhile

/-!
# Decimal text

The grammar of decimal text, over characters and over bytes alike: an optional sign, and digits with
at most one point among them. A text is read as a number if and only if it has this form.
-/

set_option autoImplicit false

namespace LexKit

variable {Letter : Type} [DecidableEq Letter]

/-- Digits with at most one point among them, and at least one digit. -/
structure IsUnsignedDecimal (point : Letter) (isDigit : Letter → Bool) (text : List Letter) :
    Prop where
  letters : ∀ letter ∈ text, isDigit letter = true ∨ letter = point
  single : text.count point ≤ 1
  nonempty : ∃ letter ∈ text, isDigit letter = true

def IsDecimal (minus point : Letter) (isDigit : Letter → Bool) (text : List Letter) : Prop :=
  ∃ sign body, text = sign ++ body ∧ (sign = [] ∨ sign = [minus]) ∧
    IsUnsignedDecimal point isDigit body

section Grammar

variable {minus point : Letter} {isDigit : Letter → Bool} {text : List Letter}

/-- All letters are digits, or one of them is a point with digits on one of its sides at least. -/
theorem isUnsignedDecimal_iff (unlike : isDigit point = false) :
    IsUnsignedDecimal point isDigit text ↔
      (text ≠ [] ∧ ∀ letter ∈ text, isDigit letter = true) ∨
      ∃ whole fraction, text = whole ++ point :: fraction ∧
        (∀ letter ∈ whole, isDigit letter = true) ∧
        (∀ letter ∈ fraction, isDigit letter = true) ∧ whole ++ fraction ≠ [] := by
  have not_point {letter : Letter} (digit : isDigit letter = true) : letter ≠ point := by
    rintro rfl
    simp [unlike] at digit
  have uncounted {run : List Letter} (digits : ∀ letter ∈ run, isDigit letter = true) :
      run.count point = 0 :=
    List.count_eq_zero.mpr fun member => not_point (digits point member) rfl
  constructor
  · rintro ⟨letters, single, letter, member, digit⟩
    have digit_of {other : Letter} (known : other ∈ text) (different : other ≠ point) :
        isDigit other = true :=
      (letters other known).resolve_right different
    by_cases pointed : point ∈ text
    · obtain ⟨whole, fraction, rfl⟩ := List.append_of_mem pointed
      rw [List.count_append, List.count_cons_self] at single
      have before : point ∉ whole := List.count_eq_zero.mp (by omega)
      have behind : point ∉ fraction := List.count_eq_zero.mp (by omega)
      refine .inr ⟨whole, fraction, rfl, ?_, ?_, ?_⟩
      · exact fun other known => digit_of (by simp [known]) fun same => before (same ▸ known)
      · exact fun other known => digit_of (by simp [known]) fun same => behind (same ▸ known)
      · refine List.ne_nil_of_mem (a := letter) ?_
        simpa [not_point digit] using member
    · refine .inl ⟨List.ne_nil_of_mem member, ?_⟩
      exact fun other known => digit_of known fun same => pointed (same ▸ known)
  · rintro (⟨nonempty, digits⟩ | ⟨whole, fraction, rfl, digits, behind, nonempty⟩)
    · obtain ⟨letter, member⟩ := List.exists_mem_of_ne_nil text nonempty
      exact ⟨fun other known => .inl (digits other known), by simp [uncounted digits], letter,
        member, digits letter member⟩
    · have all : ∀ letter ∈ whole ++ fraction, isDigit letter = true := by
        simpa [or_imp, forall_and] using ⟨digits, behind⟩
      obtain ⟨letter, member⟩ := List.exists_mem_of_ne_nil _ nonempty
      refine ⟨?_, by simp [uncounted digits, uncounted behind], letter, ?_, all letter member⟩
      · intro other known
        by_cases same : other = point
        · exact .inr same
        · exact .inl (all other (by simpa [same] using known))
      · rcases List.mem_append.mp member with before | after
        · simp [before]
        · simp [after]

variable {Code : Type} [DecidableEq Code] {translate : Code → Letter} {minusCode pointCode : Code}
  {isDigitCode : Code → Bool} {codes : List Code}

theorem isUnsignedDecimal_map (same_point : ∀ code, translate code = point ↔ code = pointCode)
    (same_digit : ∀ code, isDigit (translate code) = isDigitCode code) :
    IsUnsignedDecimal point isDigit (codes.map translate) ↔
      IsUnsignedDecimal pointCode isDigitCode codes := by
  have letters : (∀ letter ∈ codes.map translate, isDigit letter = true ∨ letter = point) ↔
      ∀ code ∈ codes, isDigitCode code = true ∨ code = pointCode := by
    simp [same_point, same_digit]
  have counted : (codes.map translate).count point = codes.count pointCode := by
    rw [List.count_eq_countP, List.count_eq_countP, List.countP_map]
    refine List.countP_congr fun code _ => ?_
    simp [same_point]
  have nonempty : (∃ letter ∈ codes.map translate, isDigit letter = true) ↔
      ∃ code ∈ codes, isDigitCode code = true := by
    simp [same_digit]
  exact ⟨fun formed => ⟨letters.mp formed.letters, counted ▸ formed.single,
      nonempty.mp formed.nonempty⟩,
    fun formed => ⟨letters.mpr formed.letters, counted ▸ formed.single,
      nonempty.mpr formed.nonempty⟩⟩

/-- The form of a text does not depend on what its letters are. -/
theorem isDecimal_map (same_minus : ∀ code, translate code = minus ↔ code = minusCode)
    (same_point : ∀ code, translate code = point ↔ code = pointCode)
    (same_digit : ∀ code, isDigit (translate code) = isDigitCode code) :
    IsDecimal minus point isDigit (codes.map translate) ↔
      IsDecimal minusCode pointCode isDigitCode codes := by
  constructor
  · rintro ⟨front, body, split, signed, unsigned⟩
    obtain ⟨before, after, rfl, rfl, rfl⟩ := List.map_eq_append_iff.mp split
    refine ⟨before, after, rfl, ?_, (isUnsignedDecimal_map same_point same_digit).mp unsigned⟩
    simpa [List.map_eq_singleton_iff, same_minus] using signed
  · rintro ⟨before, after, rfl, signed, unsigned⟩
    refine ⟨before.map translate, after.map translate, by simp, ?_,
      (isUnsignedDecimal_map same_point same_digit).mpr unsigned⟩
    simpa [List.map_eq_singleton_iff, same_minus] using signed

end Grammar

namespace Utf8

/-- A byte is decoded as a character below 0x80 if and only if it is this character's code. -/
theorem ascii_eq_iff {char : Char} (ascii : char.toNat < 0x80) (byte : UInt8) :
    (if byte < 0x80 then Char.ofNat byte.toNat else replacement) = char ↔
      byte = UInt8.ofNat char.toNat := by
  have code : (UInt8.ofNat char.toNat).toNat = char.toNat :=
    UInt8.toNat_ofNat_of_lt' (ascii.trans (by decide))
  split
  · rename_i small
    have small : byte.toNat < 0x80 := small
    have decoded : (Char.ofNat byte.toNat).toNat = byte.toNat := by
      rw [Char.ofNat, dif_pos (.inl (by omega))]
      rfl
    rw [← Char.toNat_inj, decoded, ← UInt8.toNat_inj, code]
  · rename_i large
    have large : ¬byte.toNat < 0x80 := large
    constructor
    · rintro rfl
      exact absurd ascii (by decide)
    · rintro rfl
      omega

end Utf8

namespace Numeral

variable {negative : Bool} {body : List Char}

theorem ofUnsigned?_whole (nonempty : body ≠ []) (digits : ∀ char ∈ body, isDigit char = true) :
    ofUnsigned? negative body = some ⟨negative, body.map digitValue, [], false⟩ := by
  unfold ofUnsigned?
  rw [List.takeWhile_eq_self_iff.mpr digits, List.dropWhile_eq_nil_iff.mpr digits]
  simp [nonempty]

/-- Digits around a point are read as they stand. There may be none on one side of the point, but
not on both. -/
theorem ofUnsigned?_pointed {whole fraction : List Char} (nonempty : whole ++ fraction ≠ [])
    (digits : ∀ char ∈ whole, isDigit char = true)
    (behind : ∀ char ∈ fraction, isDigit char = true) :
    ofUnsigned? negative (whole ++ '.' :: fraction) =
      some ⟨negative, whole.map digitValue, fraction.map digitValue, true⟩ := by
  have point : isDigit '.' = false := rfl
  unfold ofUnsigned?
  rw [List.takeWhile_append_of_pos digits, List.dropWhile_append_of_pos digits]
  simp only [List.takeWhile_cons, List.dropWhile_cons, point, Bool.false_eq_true, ↓reduceIte,
    List.append_nil]
  rw [if_pos]
  exact ⟨trivial, List.all_eq_true.mpr behind, by simpa using nonempty⟩

theorem ofUnsigned?_isSome_iff :
    (ofUnsigned? negative body).isSome = true ↔ IsUnsignedDecimal '.' isDigit body := by
  rw [isUnsignedDecimal_iff rfl]
  constructor
  · intro read
    have digits : ∀ char ∈ body.takeWhile isDigit, isDigit char = true :=
      fun char member => List.mem_takeWhile_imp member
    have parts := List.takeWhile_append_dropWhile (p := isDigit) (l := body)
    unfold ofUnsigned? at read
    dsimp only at read
    split at read
    · rename_i ended
      rw [ended, List.append_nil] at parts
      rw [parts] at digits read
      refine .inl ⟨?_, digits⟩
      rintro rfl
      simp at read
    · rename_i separator fraction pointed
      split at read
      · rename_i formed
        obtain ⟨rfl, behind, nonempty⟩ := formed
        rw [pointed] at parts
        refine .inr ⟨_, fraction, parts.symm, digits, List.all_eq_true.mp behind, ?_⟩
        simpa using nonempty
      · cases read
  · rintro (⟨nonempty, digits⟩ | ⟨whole, fraction, rfl, digits, behind, nonempty⟩)
    · rw [ofUnsigned?_whole nonempty digits]
      rfl
    · rw [ofUnsigned?_pointed nonempty digits behind]
      rfl

theorem ofChars?_isSome_iff {chars : List Char} :
    (ofChars? chars).isSome = true ↔ IsDecimal '-' '.' isDigit chars := by
  unfold ofChars?
  split
  · rename_i body
    rw [ofUnsigned?_isSome_iff]
    constructor
    · exact fun unsigned => ⟨['-'], body, rfl, .inr rfl, unsigned⟩
    · rintro ⟨sign, unsigned, split, rfl | rfl, formed⟩
      · -- The text begins with the sign, which is neither a digit nor a point.
        rw [List.nil_append] at split
        subst split
        rcases formed.letters '-' List.mem_cons_self with digit | point
        · cases digit
        · cases point
      · cases split
        exact formed
  · rename_i unsigned
    rw [ofUnsigned?_isSome_iff]
    constructor
    · exact fun formed => ⟨[], chars, rfl, .inl rfl, formed⟩
    · rintro ⟨sign, body, rfl, rfl | rfl, formed⟩
      · exact formed
      · exact absurd rfl (unsigned body)

private theorem isDigit_code : ∀ code < 256,
    isDigit (if UInt8.ofNat code < 0x80 then Char.ofNat (UInt8.ofNat code).toNat
      else Utf8.replacement) = Byte.isDigit (UInt8.ofNat code) := by
  decide +kernel

private theorem isDigit_byte (byte : UInt8) :
    isDigit (if byte < 0x80 then Char.ofNat byte.toNat else Utf8.replacement) =
      Byte.isDigit byte := by
  have digit := isDigit_code byte.toNat byte.toNat_lt
  rwa [UInt8.ofNat_toNat] at digit

/-- Bytes begin with a digit if their characters do. -/
theorem head?_decodeAscii (bytes : Bytes) :
    (Utf8.decodeAscii bytes).head?.any isDigit = bytes.head?.any Byte.isDigit := by
  cases bytes with
  | nil => rfl
  | cons byte rest => exact isDigit_byte byte

end Numeral

namespace Number

/-- Text is read as a number if and only if it is decimal. -/
theorem parseFloat?_isSome_iff {chars : List Char} :
    (parseFloat? chars).isSome = true ↔ IsDecimal '-' '.' Numeral.isDigit chars := by
  rw [parseFloat?, Option.isSome_map, Numeral.ofChars?_isSome_iff]

/-- Bytes are read as a number if and only if they have the form of a decimal. Bytes that are no
ASCII decode to characters that are no digits. -/
theorem parseFloat?_decodeAscii_isSome_iff {bytes : Bytes} :
    (parseFloat? (Utf8.decodeAscii bytes)).isSome = true ↔
      IsDecimal 0x2D Byte.point Byte.isDigit bytes := by
  rw [parseFloat?_isSome_iff]
  exact isDecimal_map (Utf8.ascii_eq_iff (by decide)) (Utf8.ascii_eq_iff (by decide))
    Numeral.isDigit_byte

end Number

end LexKit
