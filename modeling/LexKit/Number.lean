import LexKit.Byte
import LexKit.Real.Shortest
import LexKit.Text.Digit

/-!
# Numeric literals

Reading decimal text as a number and writing a number as decimal text. A numeral is an optional
minus sign and digits with at most one point among them; at least one digit is required. It has no
exponent and no leading plus.
-/

set_option autoImplicit false

namespace LexKit

/-- A decimal numeral, split at its point. Digits are given by their values. -/
structure Numeral where
  negative : Bool
  whole : List Nat
  fraction : List Nat
  hasPoint : Bool
deriving DecidableEq, Repr

namespace Numeral

def isDigit (char : Char) : Bool :=
  '0' ≤ char && char ≤ '9'

def digitValue (char : Char) : Nat :=
  char.toNat - 48

def ofUnsigned? (negative : Bool) (body : List Char) : Option Numeral :=
  let whole := body.takeWhile isDigit
  match body.dropWhile isDigit with
  | [] =>
      if whole.isEmpty then none else some ⟨negative, whole.map digitValue, [], false⟩
  | separator :: fraction =>
      if separator = '.' ∧ fraction.all isDigit ∧ ¬(whole.isEmpty ∧ fraction.isEmpty) then
        some ⟨negative, whole.map digitValue, fraction.map digitValue, true⟩
      else none

def ofChars? : List Char → Option Numeral
  | '-' :: body => ofUnsigned? true body
  | body => ofUnsigned? false body

/-- The sum of the whole digits, each times its place's weight, taken from the last digit on. A zero
adds nothing, so a weight that has grown to infinity does no harm behind zeros. -/
def wholeSum (digits : List Nat) : Float :=
  (digits.reverse.foldl
    (fun (sum, weight) digit =>
      (if digit = 0 then sum else sum + digit.toFloat * weight, weight * 10.0))
    ((0.0 : Float), (1.0 : Float))).1

/-- Adds the fraction digits to a sum, each times a weight that shrinks by a tenth per place. -/
def addFraction (sum : Float) (digits : List Nat) : Float :=
  (digits.foldl (fun (sum, weight) digit => (sum + digit.toFloat * weight, weight * 0.1))
    (sum, (0.1 : Float))).1

/-- The number by digit-wise accumulation in binary64. -/
def toFloat (numeral : Numeral) : Float :=
  let sum := addFraction (wholeSum numeral.whole) numeral.fraction
  if numeral.negative then -sum else sum

def toInt (numeral : Numeral) : Int :=
  let value : Nat := numeral.whole.foldl (fun value digit => value * 10 + digit) 0
  if numeral.negative then -value else value

end Numeral

namespace Number

def parseFloat? (chars : List Char) : Option Float :=
  (Numeral.ofChars? chars).map Numeral.toFloat

def parseInt? (chars : List Char) : Option Int :=
  match Numeral.ofChars? chars with
  | some numeral => if numeral.hasPoint then none else some numeral.toInt
  | none => none

/-- Digits kept in front of the first fraction digit that is dropped, for a number that is not
integral. -/
def literalDigits : Nat := 17

/-- The most places written for a small number: seventeen digits from its leading digit on, where
the leading digit is that of the number rounded to seven digits. -/
def smallPlaces (magnitude : Real.Magnitude) : Nat :=
  (((literalDigits : Int) - 1) - (Real.significant 7 magnitude).exponent).toNat

/-- The literal of a positive magnitude: all its digits if it is an integer, else up to seventeen
significant ones, without exponent and without trailing zeros. -/
def magnitudeLiteral (magnitude : Real.Magnitude) : List Char :=
  if magnitude.isIntegral then Nat.toDigits 10 magnitude.floor
  else
    let rounded := Real.significant literalDigits magnitude
    if -4 ≤ rounded.exponent then
      let places := ((literalDigits : Int) - 1 - rounded.exponent).toNat
      Real.trimFraction (Real.positional rounded.digits places)
    else
      let places := smallPlaces magnitude
      Real.trimFraction (Real.positional (Real.roundedTo magnitude places) places)

/-- The literal of a number; one that is infinite or not a number has none. -/
def literal? : Real.Number → Option String
  | .finite negative mantissa exponent =>
      let digits := magnitudeLiteral ⟨mantissa, exponent⟩
      some (String.ofList (if negative && mantissa != 0 then '-' :: digits else digits))
  | _ => none

/-- The literal of an integer; one with more digits than may be written has none. -/
def integerLiteral? (value : Int) : Option String :=
  if value.natAbs < Nat.pow 10 Text.digitLimit then some (toString value) else none

end Number

end LexKit
