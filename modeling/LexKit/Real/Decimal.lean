import LexKit.Real.Binary

/-!
# Decimal digits of binary numbers

A positive number `mantissa * 2 ^ exponent` is written in decimal by exact arithmetic on its
numerator and denominator: with a given number of significant digits, or with a given number of
places.
-/

set_option autoImplicit false

namespace LexKit.Real

/-- The magnitude of a finite number: `mantissa * 2 ^ exponent`. -/
structure Magnitude where
  mantissa : Nat
  exponent : Int
deriving DecidableEq, Repr

namespace Magnitude

def numerator (magnitude : Magnitude) : Nat :=
  magnitude.mantissa * Nat.pow 2 magnitude.exponent.toNat

def denominator (magnitude : Magnitude) : Nat :=
  Nat.pow 2 (-magnitude.exponent).toNat

def floor (magnitude : Magnitude) : Nat :=
  magnitude.numerator / magnitude.denominator

def isIntegral (magnitude : Magnitude) : Bool :=
  magnitude.numerator % magnitude.denominator == 0

end Magnitude

/-- How many decimal digits a number has; zero has one. -/
def digitCount (value : Nat) : Nat :=
  (Nat.toDigits 10 value).length

/-- The exponent of the leading decimal digit of a positive magnitude. -/
def decimalExponent (magnitude : Magnitude) : Int :=
  let numerator := magnitude.numerator
  let denominator := magnitude.denominator
  if numerator ≥ denominator then
    digitCount (numerator / denominator) - 1
  else
    let digits := digitCount (denominator / numerator)
    if numerator * Nat.pow 10 (digits - 1) ≥ denominator then -((digits : Int) - 1) else -digits

/-- The magnitude times `10 ^ places`, rounded to an integer. -/
def roundedTo (magnitude : Magnitude) (places : Int) : Nat :=
  roundQuotient (magnitude.numerator * Nat.pow 10 places.toNat)
    (magnitude.denominator * Nat.pow 10 (-places).toNat)

/-- A decimal number with a fixed number of digits: `digits`, read with its point after the first
digit, times `10 ^ exponent`. -/
structure Significant where
  digits : Nat
  exponent : Int
deriving DecidableEq, Repr

/-- The nearest decimal with `count` significant digits. Rounding up to the next power of ten moves
the point instead of adding a digit. -/
def significant (count : Nat) (magnitude : Magnitude) : Significant :=
  let exponent := decimalExponent magnitude
  let rounded := roundedTo magnitude ((count : Int) - 1 - exponent)
  if rounded ≥ Nat.pow 10 count then ⟨rounded / 10, exponent + 1⟩ else ⟨rounded, exponent⟩

def paddedDigits (width value : Nat) : List Char :=
  let digits := Nat.toDigits 10 value
  List.replicate (width - digits.length) '0' ++ digits

/-- Writes `value / 10 ^ places` with exactly `places` digits after the point. -/
def positional (value places : Nat) : List Char :=
  if places = 0 then Nat.toDigits 10 value
  else
    let scale := Nat.pow 10 places
    Nat.toDigits 10 (value / scale) ++ '.' :: paddedDigits places (value % scale)

/-- Removes the zeros at the end of a text that has a point, and then the point if it
stands last. -/
def trimFraction (chars : List Char) : List Char :=
  if chars.contains '.' then
    let kept := chars.reverse.dropWhile (· == '0')
    (if kept.head? = some '.' then kept.tail else kept).reverse
  else
    chars

end LexKit.Real
