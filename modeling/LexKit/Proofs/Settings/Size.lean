import LexKit.Settings.Size
import Mathlib.Data.Nat.Digits.Defs

/-!
# Reading byte counts

What a text is read as, said by its spelling: decimal digits of any script, and behind them one of
three capital letters or nothing. The reader looks for characters with the shape of a digit before
it reads the number, and some of these have no place value, so that it has a third outcome besides a
count and a malformed text.
-/

set_option autoImplicit false

namespace LexKit

namespace Text

def Denotes (digits : List Char) (number : Nat) : Prop :=
  ∃ values : List Nat, digits.map decimalDigit? = values.map some ∧
    number = Nat.ofDigits 10 values.reverse

variable {char : Char} {digits : List Char} {number : Nat}

theorem isDigit_of_decimalDigit? (decimal : (decimalDigit? char).isSome = true) :
    isDigit char = true := by
  rw [decimalDigit?, Option.isSome_map, List.find?_isSome] at decimal
  obtain ⟨range, known, within⟩ := decimal
  exact List.any_eq_true.mpr ⟨range, List.mem_append_left _ known, within⟩

/-- A digit in front weighs as much as there are digits behind it. -/
private theorem ofDigits_reverse_cons (start value : Nat) (values : List Nat) :
    start * 10 ^ (value :: values).length + Nat.ofDigits 10 (value :: values).reverse =
      (start * 10 + value) * 10 ^ values.length + Nat.ofDigits 10 values.reverse := by
  rw [List.reverse_cons, Nat.ofDigits_append, Nat.ofDigits_singleton, List.length_cons,
    List.length_reverse]
  ring

private theorem foldlM_decimalDigit? (start : Nat) :
    digits.foldlM (fun value char => (decimalDigit? char).map (value * 10 + ·)) start =
        some number ↔
      ∃ values : List Nat, digits.map decimalDigit? = values.map some ∧
        number = start * 10 ^ values.length + Nat.ofDigits 10 values.reverse := by
  induction digits generalizing start with
  | nil =>
      constructor
      · intro same
        cases same
        exact ⟨[], rfl, by simp⟩
      · rintro ⟨values, same, rfl⟩
        cases List.map_eq_nil_iff.mp same.symm
        simp
  | cons char rest ih =>
      rw [List.foldlM_cons, List.map_cons]
      cases digit : decimalDigit? char with
      | none =>
          constructor
          · intro found
            cases found
          rintro ⟨values, same, -⟩
          obtain ⟨first, values, rfl, head, -⟩ := List.map_eq_cons_iff.mp same.symm
          cases head
      | some value =>
          refine (ih (start * 10 + value)).trans ⟨?_, ?_⟩
          · rintro ⟨values, same, rfl⟩
            refine ⟨value :: values, by rw [List.map_cons, same], ?_⟩
            rw [ofDigits_reverse_cons]
          · rintro ⟨values, same, rfl⟩
            obtain ⟨first, values, rfl, head, tail⟩ := List.map_eq_cons_iff.mp same.symm
            cases head
            refine ⟨values, tail.symm, ?_⟩
            rw [ofDigits_reverse_cons]

theorem decimalValue?_eq_some_iff : decimalValue? digits = some number ↔ Denotes digits number := by
  unfold decimalValue? Denotes
  rw [foldlM_decimalDigit?]
  simp

theorem Denotes.isDigit (denotes : Denotes digits number) :
    ∀ char ∈ digits, Text.isDigit char = true := by
  intro char member
  obtain ⟨values, same, -⟩ := denotes
  have decimal : decimalDigit? char ∈ values.map some := by
    rw [← same]
    exact List.mem_map_of_mem member
  obtain ⟨value, -, known⟩ := List.mem_map.mp decimal
  exact isDigit_of_decimalDigit? (by rw [← known, Option.isSome_some])

theorem exists_denotes (decimal : ∀ char ∈ digits, (decimalDigit? char).isSome = true) :
    ∃ number, Denotes digits number := by
  induction digits with
  | nil => exact ⟨_, [], rfl, rfl⟩
  | cons char rest ih =>
      obtain ⟨value, known⟩ := Option.isSome_iff_exists.mp (decimal char List.mem_cons_self)
      obtain ⟨number, values, same, -⟩ :=
        ih fun later member => decimal later (List.mem_cons_of_mem char member)
      exact ⟨_, value :: values, by rw [List.map_cons, List.map_cons, known, same], rfl⟩

/-! ## Capital letters -/

theorem toUpper_cases (char : Char) :
    char.toUpper = char ∨
      97 ≤ char.toNat ∧ char.toNat ≤ 122 ∧ char.toUpper.toNat + 32 = char.toNat := by
  unfold Char.toUpper
  split
  · rename_i small
    have above : 97 ≤ char.val.toNat := small.1
    have below : char.val.toNat ≤ 122 := small.2
    refine .inr ⟨above, below, ?_⟩
    change (char.val + (65 - 97)).toNat + 32 = char.val.toNat
    rw [UInt32.toNat_add]
    change (char.val.toNat + 4294967264) % 4294967296 + 32 = char.val.toNat
    omega
  · exact .inl rfl

private theorem not_isDigit_letter (above : 65 ≤ char.toNat) (below : char.toNat ≤ 122) :
    isDigit char = false := by
  have none_among : ∀ code ≤ 122, 65 ≤ code →
      ((decimalDigitRanges ++ otherDigitRanges).any fun range =>
        range.1 ≤ code && code ≤ range.2) = false := by decide +kernel
  exact none_among char.toNat below above

/-- A digit is its own capital, and no other character's. -/
theorem toUpper_of_isDigit (digit : isDigit char = true ∨ isDigit char.toUpper = true) :
    char.toUpper = char := by
  rcases toUpper_cases char with same | ⟨above, below, shifted⟩
  · exact same
  · rw [not_isDigit_letter (by omega) below, not_isDigit_letter (by omega) (by omega)] at digit
    simp at digit

end Text

namespace ByteCount

/-- The text in capital letters, without the blanks around it. Only the letters from a to z are
changed: no other character has a capital that is a digit or one of the suffixes. -/
def capitals (text : String) : List Char :=
  (Text.trim text.toList).map Char.toUpper

inductive Suffix : List Char → Nat → Prop where
  | none : Suffix [] 1
  | kilo : Suffix ['K'] 1024
  | mega : Suffix ['M'] (1024 ^ 2)
  | giga : Suffix ['G'] (1024 ^ 3)

theorem Suffix.length_le {suffix : List Char} {factor : Nat} (isSuffix : Suffix suffix factor) :
    suffix.length ≤ 1 := by
  cases isSuffix <;> simp

/-- The text has these characters in front of a suffix. -/
structure Spells (text : String) (digits : List Char) (factor : Nat) : Prop where
  nonempty : digits ≠ []
  capitals_eq : ∃ suffix, Suffix suffix factor ∧ capitals text = digits ++ suffix

inductive Reads (text : String) : Except SizeFault Nat → Prop where
  | count {digits : List Char} {factor number : Nat} (spells : Spells text digits factor)
      (denotes : Text.Denotes digits number) (short : digits.length ≤ Text.digitLimit) :
      Reads text (.ok (number * factor))
  | malformed (other : ∀ digits factor, Spells text digits factor →
      ∃ char ∈ digits, Text.isDigit char = false) :
      Reads text (.error (.malformed text))
  /-- The characters have the shape of digits, but one of them has no place value, or there are too
  many of them. -/
  | unreadable {digits : List Char} {factor : Nat} (spells : Spells text digits factor)
      (shaped : ∀ char ∈ digits, Text.isDigit char = true)
      (unread : Text.digitLimit < digits.length ∨
        ∃ char ∈ digits, Text.decimalDigit? char = none) :
      Reads text (.error .unreadable)

variable {char : Char} {chars digits : List Char} {factor : Nat} {text : String}
  {result : Except SizeFault Nat}

private theorem eq_of_toUpper {capital : Char} (small : Char)
    (shifted : small.toNat = capital.toNat + 32) (same : char.toUpper = capital) :
    char = capital ∨ char = small := by
  rcases Text.toUpper_cases char with kept | ⟨-, -, moved⟩
  · exact .inl (kept.symm.trans same)
  · rw [same, ← shifted] at moved
    exact .inr (Char.toNat_inj.mp moved.symm)

theorem suffix_of_suffixFactor? (found : suffixFactor? char = some factor) :
    (65 ≤ char.toNat ∧ char.toNat ≤ 122) ∧ Suffix [char.toUpper] factor := by
  unfold suffixFactor? at found
  split at found
  · rename_i either
    cases found
    rcases either with rfl | rfl <;> exact ⟨by decide, .kilo⟩
  · split at found
    · rename_i either
      cases found
      rcases either with rfl | rfl <;> exact ⟨by decide, .mega⟩
    · split at found
      · rename_i either
        cases found
        rcases either with rfl | rfl <;> exact ⟨by decide, .giga⟩
      · cases found

theorem suffixFactor?_of_suffix (suffix : Suffix [char.toUpper] factor) :
    suffixFactor? char = some factor := by
  generalize capital : char.toUpper = letter at suffix
  cases suffix with
  | kilo => rcases eq_of_toUpper 'k' rfl capital with rfl | rfl <;> rfl
  | mega => rcases eq_of_toUpper 'm' rfl capital with rfl | rfl <;> rfl
  | giga => rcases eq_of_toUpper 'g' rfl capital with rfl | rfl <;> rfl

theorem suffixFactor?_of_isDigit (digit : Text.isDigit char = true) :
    suffixFactor? char = none := by
  cases found : suffixFactor? char with
  | none => rfl
  | some factor =>
      obtain ⟨⟨above, below⟩, -⟩ := suffix_of_suffixFactor? found
      cases digit.symm.trans (Text.not_isDigit_letter above below)

/-! ## Taking a text apart -/

/-- What is taken for the digits stands in front of the suffix that is found. -/
theorem capitals_splitSuffix (chars : List Char) :
    ∃ suffix, Suffix suffix (splitSuffix chars).2 ∧
      chars.map Char.toUpper = (splitSuffix chars).1.map Char.toUpper ++ suffix := by
  unfold splitSuffix
  split
  · rename_i factor found
    obtain ⟨last, ending, known⟩ := Option.bind_eq_some_iff.mp found
    obtain ⟨front, rfl⟩ := List.getLast?_eq_some_iff.mp ending
    refine ⟨[last.toUpper], (suffix_of_suffixFactor? known).2, ?_⟩
    rw [List.dropLast_concat, List.map_append, List.map_singleton]
  · exact ⟨[], .none, (List.append_nil _).symm⟩

private theorem map_toUpper_of_isDigit
    (shaped : ∀ char ∈ chars, Text.isDigit char = true ∨ Text.isDigit char.toUpper = true) :
    chars.map Char.toUpper = chars :=
  (List.map_congr_left fun char member => Text.toUpper_of_isDigit (shaped char member)).trans
    (List.map_id' chars)

/-- A text of digits and a suffix is taken apart as it is spelled. -/
theorem splitSuffix_of_spells (spells : Spells text digits factor)
    (shaped : ∀ char ∈ digits, Text.isDigit char = true) :
    splitSuffix (Text.trim text.toList) = (digits, factor) := by
  obtain ⟨suffix, isSuffix, same⟩ := spells.capitals_eq
  obtain ⟨front, tail, whole, rfl, rfl⟩ := List.map_eq_append_iff.mp same
  have kept : front.map Char.toUpper = front := map_toUpper_of_isDigit fun char member =>
    .inr (shaped _ (List.mem_map_of_mem member))
  rw [kept] at shaped ⊢
  rw [whole]
  cases tail with
  | nil =>
      cases isSuffix
      rw [List.append_nil, splitSuffix]
      have unsuffixed : front.getLast?.bind suffixFactor? = none := by
        cases ending : front.getLast? with
        | none => rfl
        | some last => exact suffixFactor?_of_isDigit (shaped last (List.mem_of_getLast? ending))
      rw [unsuffixed]
  | cons letter others =>
      obtain rfl : others = [] := by
        have short := isSuffix.length_le
        rw [List.map_cons, List.length_cons, List.length_map] at short
        exact List.length_eq_zero_iff.mp (by omega)
      rw [splitSuffix, List.getLast?_concat, Option.bind_some, suffixFactor?_of_suffix isSuffix]
      dsimp only
      rw [List.dropLast_concat]

/-- A text that is taken apart into digits is spelled so. -/
theorem spells_of_splitSuffix (taken : splitSuffix (Text.trim text.toList) = (digits, factor))
    (nonempty : digits ≠ []) (shaped : ∀ char ∈ digits, Text.isDigit char = true) :
    Spells text digits factor := by
  obtain ⟨suffix, isSuffix, same⟩ := capitals_splitSuffix (Text.trim text.toList)
  rw [taken] at isSuffix same
  rw [map_toUpper_of_isDigit fun char member => .inl (shaped char member)] at same
  exact ⟨nonempty, suffix, isSuffix, same⟩

/-! ## Reading -/

/-- Digits that are no decimal digits pass the check and are not understood then. Too many digits
are not understood, either. -/
theorem parse_of_splitSuffix (taken : splitSuffix (Text.trim text.toList) = (digits, factor))
    (nonempty : digits ≠ []) (shaped : ∀ char ∈ digits, Text.isDigit char = true) :
    parse text =
      if Text.digitLimit < digits.length then .error .unreadable
      else
        match Text.decimalValue? digits with
        | some value => .ok (value * factor)
        | none => .error .unreadable := by
  have digital : ¬(digits.isEmpty ∨ ¬digits.all Text.isDigit) := by
    simp only [List.isEmpty_iff, nonempty, List.all_eq_true.mpr shaped, not_true_eq_false, or_self,
      not_false_eq_true]
  unfold parse
  rw [taken]
  exact if_neg digital

theorem exists_reads (text : String) : ∃ result, Reads text result := by
  by_cases other : ∀ digits factor, Spells text digits factor →
      ∃ char ∈ digits, Text.isDigit char = false
  · exact ⟨_, .malformed other⟩
  · push Not at other
    obtain ⟨digits, factor, spells, shaped⟩ := other
    have shaped : ∀ char ∈ digits, Text.isDigit char = true := by simpa using shaped
    by_cases long : Text.digitLimit < digits.length
    · exact ⟨_, .unreadable spells shaped (.inl long)⟩
    · by_cases decimal : ∀ char ∈ digits, (Text.decimalDigit? char).isSome = true
      · obtain ⟨number, denotes⟩ := Text.exists_denotes decimal
        exact ⟨_, .count spells denotes (Nat.not_lt.mp long)⟩
      · push Not at decimal
        obtain ⟨char, member, unvalued⟩ := decimal
        exact ⟨_, .unreadable spells shaped (.inr ⟨char, member, by simpa using unvalued⟩)⟩

theorem Reads.parse_eq (reads : Reads text result) : parse text = result := by
  cases reads with
  | count spells denotes short =>
      rw [parse_of_splitSuffix (splitSuffix_of_spells spells denotes.isDigit) spells.nonempty
        denotes.isDigit, if_neg (Nat.not_lt.mpr short),
        Text.decimalValue?_eq_some_iff.mpr denotes]
  | malformed other =>
      cases taken : splitSuffix (Text.trim text.toList) with
      | mk digits factor =>
          have refused : digits.isEmpty ∨ ¬digits.all Text.isDigit := by
            by_contra digital
            push Not at digital
            obtain ⟨nonempty, shaped⟩ := digital
            have shaped := List.all_eq_true.mp shaped
            obtain ⟨char, member, unshaped⟩ := other digits factor
              (spells_of_splitSuffix taken (by simpa using nonempty) shaped)
            cases unshaped.symm.trans (shaped char member)
          unfold parse
          rw [taken]
          dsimp only
          rw [if_pos refused]
  | unreadable spells shaped unread =>
      rw [parse_of_splitSuffix (splitSuffix_of_spells spells shaped) spells.nonempty shaped]
      split
      · rfl
      · rename_i short
        obtain ⟨char, member, unvalued⟩ := unread.resolve_left short
        cases found : Text.decimalValue? _ with
        | none => rfl
        | some value =>
            obtain ⟨values, same, -⟩ := Text.decimalValue?_eq_some_iff.mp found
            have valued := List.mem_map_of_mem (f := Text.decimalDigit?) member
            rw [same, unvalued] at valued
            simp at valued

/-- A text is read as a count if and only if it is spelled with decimal digits, no more than the
limit, as malformed if and only if it is not spelled with digits at all, and is unreadable in the
remaining cases. -/
theorem parse_eq_iff (text : String) (result : Except SizeFault Nat) :
    parse text = result ↔ Reads text result := by
  constructor
  · rintro rfl
    obtain ⟨result, reads⟩ := exists_reads text
    exact reads.parse_eq ▸ reads
  · exact Reads.parse_eq

/-- A superscript two is not spelled with decimal digits, but it is not malformed either. -/
theorem not_malformed_without_decimals :
    ¬∀ text, (∀ digits factor, Spells text digits factor →
      ∃ char ∈ digits, Text.decimalDigit? char = none) →
        parse text = .error (.malformed text) := by
  intro malformed
  have refused : parse "²" = .error (.malformed "²") := by
    refine malformed "²" fun digits factor spells => ?_
    obtain ⟨suffix, -, same⟩ := spells.capitals_eq
    have alone : capitals "²" = ['²'] := by decide +kernel
    rw [alone, List.singleton_eq_append_iff] at same
    obtain ⟨none_before, -⟩ | ⟨rfl, -⟩ := same
    · exact absurd none_before spells.nonempty
    · exact ⟨'²', List.mem_singleton_self _, by decide +kernel⟩
  have read : parse "²" = .error .unreadable := by decide +kernel
  cases read.symm.trans refused

end ByteCount

end LexKit
