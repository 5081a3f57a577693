import LexKit.Proofs.Scan.Failure
import LexKit.Proofs.Scan.Tiling
import Mathlib.Data.List.Forall2

/-!
# Numerals

A place where no symbol begins and a digit is read holds a number. It takes the whole of a numeral
up to the end of the source, and what it takes anywhere is a numeral that reads as its value.
-/

set_option autoImplicit false

namespace LexKit

/-- Decimal text that begins with a digit is a numeral. -/
theorem unsignedNumeral_of_isDecimal {text : Bytes}
    (decimal : IsDecimal 0x2D Byte.point Byte.isDigit text)
    (digit : text.head?.any Byte.isDigit = true) : UnsignedNumeral text := by
  obtain ⟨sign, body, rfl, rfl | rfl, formed⟩ := decimal
  · rw [List.nil_append] at digit ⊢
    rcases (isUnsignedDecimal_iff rfl).mp formed with
      ⟨nonempty, digits⟩ | ⟨whole, fraction, rfl, digits, behind, -⟩
    · exact .whole nonempty digits
    · refine .pointed ?_ digits behind
      rintro rfl
      cases digit
  · cases digit

namespace Scan

variable {rules : ScanRules}

private theorem kinds_of_code : ∀ code < 256, Byte.isDigit (UInt8.ofNat code) = true →
    Byte.isLetter (UInt8.ofNat code) = false ∧ Byte.isWhitespace (UInt8.ofNat code) = false ∧
      (UInt8.ofNat code == Byte.quote) = false := by
  decide +kernel

/-- A digit is neither a letter nor blank nor a quote. -/
theorem kinds_of_digit {byte : UInt8} (digit : Byte.isDigit byte = true) :
    Byte.isLetter byte = false ∧ Byte.isWhitespace byte = false ∧ (byte == Byte.quote) = false := by
  have kinds := kinds_of_code byte.toNat byte.toNat_lt
  rw [UInt8.ofNat_toNat] at kinds
  exact kinds digit

theorem step_of_digit {here : Place} {byte : UInt8} {rest : Bytes}
    (digit : Byte.isDigit byte = true) (unmatched : rules.symbols.match? here.rest = none) :
    step rules here byte rest = number here := by
  obtain ⟨unlettered, -, unquoted⟩ := kinds_of_digit digit
  rw [step, unmatched]
  simp only [unlettered, unquoted, digit, Bool.false_eq_true, ↓reduceIte]

/-- A numeral at the end of the source is a number, and nothing is left behind it. -/
theorem number_of_unsigned {here : Place} {text : Bytes} {value : Float} (reads : here.rest = text)
    (unsigned : UnsignedNumeral text)
    (parsed : Number.parseFloat? (Utf8.decodeAscii text) = some value) :
    ∃ next, number here = .token ⟨.number value, here.offset⟩ next ∧ next.rest = [] := by
  cases unsigned with
  | whole nonempty digits =>
      have ended : (here.skipWhile Byte.isDigit).rest = [] := by
        rw [Place.skipWhile_rest, reads, List.dropWhile_eq_nil_iff.mpr digits]
      refine ⟨_, ?_, ended⟩
      rw [number_eq_of_unpointed (by rw [ended]; simp), reads,
        List.takeWhile_eq_self_iff.mpr digits, numeral, parsed]
  | @pointed digits fraction nonempty accepted behind =>
      have point : Byte.isDigit Byte.point = false := rfl
      have pointed : (here.skipWhile Byte.isDigit).rest = Byte.point :: fraction := by
        rw [Place.skipWhile_rest, reads, List.dropWhile_append_of_pos accepted,
          List.dropWhile_cons_of_neg (by simp [point])]
      have whole : here.rest.takeWhile Byte.isDigit = digits := by
        rw [reads, List.takeWhile_append_of_pos accepted,
          List.takeWhile_cons_of_neg (by simp [point]), List.append_nil]
      have ended : (Place.skipFrom Byte.isDigit ((here.skipWhile Byte.isDigit).offset + 1)
          fraction).rest = [] := by
        rw [Place.skipFrom_rest, List.dropWhile_eq_nil_iff.mpr behind]
      refine ⟨_, ?_, ended⟩
      rw [number_eq_of_pointed pointed]
      dsimp only
      rw [ended, if_neg (by simp), whole, List.takeWhile_eq_self_iff.mpr behind, numeral, parsed]

/-- The text in front of `stop`, from where the token begins, reads as the number of the token, if
it has one. -/
def ReadsNumber (source : Bytes) (token : Token Bytes) (stop : Nat) : Prop :=
  ∀ value, token.lexeme = .number value →
    Number.parseFloat? (Utf8.decodeAscii (source.extract token.offset stop)) = some value

/-- Every number token has the value of the bytes that it spells. -/
theorem readsNumbers_of_tiling {source : Bytes} {position : Nat} {tokens : List (Token Bytes)}
    {stops : List Nat} (tiled : Tiling rules source position tokens stops) :
    List.Forall₂ (ReadsNumber source) tokens stops := by
  induction tiled with
  | finish => exact .nil
  | token _ _ _ _ spelled _ ih =>
      refine .cons ?_ ih
      intro value numeric
      rw [numeric] at spelled
      cases spelled with
      | number _ _ parsed => exact parsed

end Scan

structure ScanRules.SparesDigits (rules : ScanRules) : Prop where
  marker : rules.markerBytes.head?.any Byte.isDigit = false
  symbols : ∀ entry ∈ rules.symbols.entries, entry.literal.head?.any Byte.isDigit = false

/-- What begins with no digit stands at no digit, unless it is empty. -/
private theorem not_prefix_of_digit {text source : Bytes} (nonempty : text ≠ [])
    (undigit : text.head?.any Byte.isDigit = false)
    (digit : source.head?.any Byte.isDigit = true) : ¬text <+: source := by
  obtain ⟨byte, more, rfl⟩ := List.exists_cons_of_ne_nil nonempty
  rintro ⟨rest, rfl⟩
  exact Bool.false_ne_true (undigit.symm.trans digit)

namespace ScanRules

variable {rules : ScanRules}

theorem SparesDigits.match?_eq_none (spares : rules.SparesDigits) {source : Bytes}
    (digit : source.head?.any Byte.isDigit = true) : rules.symbols.match? source = none := by
  refine List.find?_eq_none.mpr fun entry member accepted => ?_
  rw [SymbolEntry.accepts, Bool.and_eq_true, List.isPrefixOf_iff_prefix] at accepted
  exact not_prefix_of_digit (rules.symbols.nonempty entry member) (spares.symbols entry member)
    digit accepted.1

/-- In front of a digit there is nothing to skip. A marker that begins with a digit would turn a
number into a comment. -/
theorem SparesDigits.skipTrivia_eq (spares : rules.SparesDigits) {place : Place}
    (digit : place.rest.head?.any Byte.isDigit = true) : Scan.skipTrivia rules place = place := by
  refine Scan.skipTrivia_eq_self ?_ ?_
  · refine eq_false_of_ne_true fun commented => ?_
    exact not_prefix_of_digit rules.marker_ne spares.marker digit
      (List.isPrefixOf_iff_prefix.mp commented)
  · cases split : place.rest with
    | nil => rfl
    | cons byte rest =>
        rw [split] at digit
        exact (Scan.kinds_of_digit digit).2.1

end ScanRules

end LexKit
