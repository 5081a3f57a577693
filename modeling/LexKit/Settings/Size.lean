import LexKit.Memory.Units
import LexKit.Text.Blank
import LexKit.Text.Digit

/-!
# Byte counts

A byte count is written as decimal digits of any script, with an optional suffix for a multiple of
1024.
-/

set_option autoImplicit false

namespace LexKit

inductive SizeFault where
  | malformed (text : String)
  | negative (value : Int)
  /-- All characters are digits, but some have no place value or there are too many of them. -/
  | unreadable
deriving DecidableEq, Repr

namespace SizeFault

def message? : SizeFault → Option String
  | malformed text => some ("invalid size (expected BYTES[K|M|G]): " ++ text)
  | negative value => some ("invalid size (must be non-negative): " ++ toString value)
  | unreadable => none

end SizeFault

namespace ByteCount

/-- The factor of a suffix, which may be written in either case. -/
def suffixFactor? (char : Char) : Option Nat :=
  if char = 'K' ∨ char = 'k' then some 1024
  else if char = 'M' ∨ char = 'm' then some Units.megabyte
  else if char = 'G' ∨ char = 'g' then some Units.gigabyte
  else none

/-- Splits a text into its digits and the factor of its suffix. -/
def splitSuffix (chars : List Char) : List Char × Nat :=
  match chars.getLast?.bind suffixFactor? with
  | some factor => (chars.dropLast, factor)
  | none => (chars, 1)

/-- Reads a byte count. Blanks around it do not matter. -/
def parse (text : String) : Except SizeFault Nat :=
  let (digits, factor) := splitSuffix (Text.trim text.toList)
  if digits.isEmpty ∨ ¬digits.all Text.isDigit then .error (.malformed text)
  else if digits.length > Text.digitLimit then .error .unreadable
  else
    match Text.decimalValue? digits with
    | some value => .ok (value * factor)
    | none => .error .unreadable

/-- A number that is given as such must not be negative. -/
def ofInt (value : Int) : Except SizeFault Nat :=
  if value < 0 then .error (.negative value) else .ok value.toNat

end ByteCount

end LexKit
