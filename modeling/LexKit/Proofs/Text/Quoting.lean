import LexKit.Text.Quoted
import Mathlib.Tactic.Ring

/-!
# Reading quoted text

Each character of a quoted text is read back from its escaped form, whatever follows it: a form of
several characters begins with a backslash, and the one behind that tells how many more there are.
So a quoted text determines the text, although the mark depends on it. No form contains a line feed.
-/

set_option autoImplicit false

namespace LexKit.Text

/-! ## Hexadecimal digits -/

def hexDigitValue (digit : Char) : Nat :=
  if digit.toNat < 97 then digit.toNat - 48 else digit.toNat - 87

def hexValue (digits : List Char) : Nat :=
  digits.foldl (fun value digit => 16 * value + hexDigitValue digit) 0

theorem hexDigitValue_digitChar : ∀ digit < 16, hexDigitValue (Nat.digitChar digit) = digit := by
  decide

theorem hexDigits_succ (width value : Nat) :
    hexDigits (width + 1) value =
      Nat.digitChar (value / 16 ^ width % 16) :: hexDigits width value := by
  unfold hexDigits
  rw [List.range_succ, List.reverse_append]
  rfl

theorem length_hexDigits (width value : Nat) : (hexDigits width value).length = width := by
  simp [hexDigits]

private theorem foldl_hexDigits (width value initial : Nat) :
    (hexDigits width value).foldl (fun value digit => 16 * value + hexDigitValue digit) initial =
      16 ^ width * initial + value % 16 ^ width := by
  induction width generalizing initial with
  | zero => simp [hexDigits, Nat.mod_one]
  | succ width ih =>
      rw [hexDigits_succ, List.foldl_cons, ih,
        hexDigitValue_digitChar _ (Nat.mod_lt _ (by decide)), Nat.mod_pow_succ, Nat.pow_succ]
      ring

theorem hexValue_hexDigits {width value : Nat} (small : value < 16 ^ width) :
    hexValue (hexDigits width value) = value := by
  rw [hexValue, foldl_hexDigits, Nat.mul_zero, Nat.zero_add, Nat.mod_eq_of_lt small]

theorem lineFeed_not_mem_hexDigits (width value : Nat) : '\n' ∉ hexDigits width value := by
  have digits : ∀ digit < 16, '\n' ≠ Nat.digitChar digit := by decide
  intro member
  obtain ⟨place, -, same⟩ := List.mem_map.mp member
  exact digits _ (Nat.mod_lt _ (by decide)) same.symm

/-! ## One character -/

/-- How many digits are behind a backslash and a letter that has some. -/
def escapeWidth? : Char → Option Nat
  | 'x' => some 2
  | 'u' => some 4
  | 'U' => some 8
  | _ => none

def escapedChar : Char → Char
  | 'n' => '\n'
  | 'r' => '\r'
  | 't' => '\t'
  | char => char

/-- Reads one character of a quoted text, and gives what is behind it. -/
def readEscape : List Char → Option (Char × List Char)
  | '\\' :: letter :: rest =>
      match escapeWidth? letter with
      | some width => some (Char.ofNat (hexValue (rest.take width)), rest.drop width)
      | none => some (escapedChar letter, rest)
  | char :: rest => some (char, rest)
  | [] => none

inductive Escaped (mark : Char) : Char → List Char → Prop where
  | plain {char : Char} :
      char ≠ backslash → char ≠ '\n' → Escaped mark char [char]
  | named {char letter : Char} :
      escapeWidth? letter = none → escapedChar letter = char → letter ≠ '\n' →
      Escaped mark char [backslash, letter]
  | coded {char letter : Char} {width : Nat} :
      escapeWidth? letter = some width → letter ≠ '\n' → char.toNat < 16 ^ width →
      Escaped mark char (backslash :: letter :: hexDigits width char.toNat)

def IsMark (mark : Char) : Prop :=
  mark = apostrophe ∨ mark = quotationMark

theorem isMark_markFor (chars : List Char) : IsMark (markFor chars) := by
  unfold markFor
  split
  · exact .inr rfl
  · exact .inl rfl

private theorem code_lt (char : Char) : char.toNat < 16 ^ 8 :=
  char.val.toNat_lt

theorem escaped_escapeChar {mark : Char} (isMark : IsMark mark) (char : Char) :
    Escaped mark char (escapeChar mark char) := by
  unfold escapeChar commonEscape?
  by_cases marked : char = mark ∨ char = backslash
  · rw [if_pos marked]
    rcases marked with rfl | rfl
    · rcases isMark with rfl | rfl <;> exact .named rfl rfl (by decide)
    · exact .named rfl rfl (by decide)
  rw [if_neg marked]
  by_cases lineFeed : char = '\n'
  · subst lineFeed
    exact .named rfl rfl (by decide)
  rw [if_neg lineFeed]
  by_cases carriageReturn : char = '\r'
  · subst carriageReturn
    exact .named rfl rfl (by decide)
  rw [if_neg carriageReturn]
  by_cases tab : char = '\t'
  · subst tab
    exact .named rfl rfl (by decide)
  rw [if_neg tab]
  dsimp only
  split
  · exact .plain (not_or.mp marked).2 lineFeed
  · split
    · rename_i small
      exact .coded rfl (by decide) small
    · split
      · rename_i small
        exact .coded rfl (by decide) small
      · exact .coded rfl (by decide) (code_lt char)

namespace Escaped

variable {mark char : Char} {form : List Char}

theorem readEscape_append (escaped : Escaped mark char form) (rest : List Char) :
    readEscape (form ++ rest) = some (char, rest) := by
  cases escaped with
  | plain ordinary _ =>
      rw [List.singleton_append]
      unfold readEscape
      split
      · rename_i same
        cases same
        exact absurd rfl ordinary
      · rename_i same
        cases same
        rfl
      · rename_i absent
        cases absent
  | @named letter bare same _ =>
      change readEscape ('\\' :: letter :: rest) = _
      simp only [readEscape, bare, same]
  | @coded letter width digits _ small =>
      change readEscape ('\\' :: letter :: (hexDigits width char.toNat ++ rest)) = _
      have length := length_hexDigits width char.toNat
      simp only [readEscape, digits]
      rw [List.take_left' length, List.drop_left' length, hexValue_hexDigits small,
        Char.ofNat_toNat]

theorem ne_nil (escaped : Escaped mark char form) : form ≠ [] := by
  cases escaped <;> exact List.cons_ne_nil _ _

theorem lineFeed_not_mem (escaped : Escaped mark char form) : '\n' ∉ form := by
  cases escaped with
  | plain _ other => exact fun member => other (List.mem_singleton.mp member).symm
  | named _ _ other =>
      intro member
      rcases List.mem_cons.mp member with same | member
      · exact absurd same (by decide)
      · exact other (List.mem_singleton.mp member).symm
  | coded _ other _ =>
      intro member
      rcases List.mem_cons.mp member with same | member
      · exact absurd same (by decide)
      · rcases List.mem_cons.mp member with same | member
        · exact other same.symm
        · exact lineFeed_not_mem_hexDigits _ _ member

end Escaped

/-! ## Whole texts -/

/-- Escaped characters can be told apart one by one, from the front: no form of a character begins
the form of another one. -/
theorem flatMap_escapeChar_injective {mark : Char} (isMark : IsMark mark) :
    Function.Injective fun chars : List Char => chars.flatMap (escapeChar mark) := by
  intro first
  induction first with
  | nil =>
      rintro (_ | ⟨char, second⟩) same
      · rfl
      · exact absurd (List.append_eq_nil_iff.mp same.symm).1 (escaped_escapeChar isMark char).ne_nil
  | cons char first ih =>
      rintro (_ | ⟨other, second⟩) same
      · exact absurd (List.append_eq_nil_iff.mp same).1 (escaped_escapeChar isMark char).ne_nil
      · have read := congrArg readEscape same
        simp only [List.flatMap_cons, (escaped_escapeChar isMark _).readEscape_append,
          Option.some.injEq, Prod.mk.injEq] at read
        obtain ⟨rfl, rest⟩ := read
        rw [ih rest]

/-- The mark is the first character, so that texts of different marks differ. -/
theorem quoteChars_injective : Function.Injective quoteChars := by
  intro first second same
  unfold quoteChars at same
  obtain ⟨mark, forms⟩ := List.cons.inj same
  rw [mark] at forms
  exact flatMap_escapeChar_injective (isMark_markFor second) (List.append_cancel_right forms)

/-- A quoted text stays on one line, because line feeds are escaped. -/
theorem lineFeed_not_mem_quoteChars (chars : List Char) : '\n' ∉ quoteChars chars := by
  have isMark := isMark_markFor chars
  have marked : '\n' ≠ markFor chars := by
    rcases isMark with same | same <;> rw [same] <;> decide
  unfold quoteChars
  intro member
  rcases List.mem_append.mp member with member | member
  · rcases List.mem_cons.mp member with same | member
    · exact marked same
    · obtain ⟨char, -, member⟩ := List.mem_flatMap.mp member
      exact (escaped_escapeChar isMark char).lineFeed_not_mem member
  · exact marked (List.mem_singleton.mp member)

end LexKit.Text
