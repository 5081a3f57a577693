/-!
# Binary floating point, exactly

A binary format stores a sign, a biased exponent and a fraction. Decoding gives the number a bit
pattern denotes as an integer times a power of two; encoding rounds an exact quotient to the nearest
number of the format, a tie going to the even neighbour.
-/

set_option autoImplicit false

namespace LexKit.Real

/-- The quotient rounded to the nearest integer; a quotient halfway between two goes to the even
one. -/
def roundQuotient (numerator denominator : Nat) : Nat :=
  let quotient := numerator / denominator
  let twice := 2 * (numerator % denominator)
  if twice < denominator then quotient
  else if twice > denominator then quotient + 1
  else quotient + quotient % 2

/-- The widths of the exponent and fraction fields of a binary format. -/
structure Format where
  exponentBits : Nat
  fractionBits : Nat
deriving DecidableEq, Repr

def half : Format := ⟨5, 10⟩

def single : Format := ⟨8, 23⟩

def double : Format := ⟨11, 52⟩

/-- What a bit pattern denotes. A finite number is `mantissa * 2 ^ exponent`; a number that is not a
number keeps its fraction field. -/
inductive Number where
  | finite (negative : Bool) (mantissa : Nat) (exponent : Int)
  | infinite (negative : Bool)
  | notANumber (negative : Bool) (fraction : Nat)
deriving DecidableEq, Repr

namespace Format

def width (format : Format) : Nat :=
  1 + format.exponentBits + format.fractionBits

/-- The exponent of the last fraction bit of the least positive numbers. -/
def leastExponent (format : Format) : Int :=
  2 - Nat.pow 2 (format.exponentBits - 1) - format.fractionBits

/-- The magnitude bits of infinity: the least pattern that denotes no finite number. -/
def infinity (format : Format) : Nat :=
  (Nat.pow 2 format.exponentBits - 1) * Nat.pow 2 format.fractionBits

/-- The fraction bit that marks a quiet not-a-number. -/
def quietBit (format : Format) : Nat :=
  Nat.pow 2 (format.fractionBits - 1)

def decode (format : Format) (bits : Nat) : Number :=
  let negative := bits / Nat.pow 2 (format.exponentBits + format.fractionBits) % 2 == 1
  let biased := bits / Nat.pow 2 format.fractionBits % Nat.pow 2 format.exponentBits
  let fraction := bits % Nat.pow 2 format.fractionBits
  if biased = Nat.pow 2 format.exponentBits - 1 then
    if fraction = 0 then .infinite negative else .notANumber negative fraction
  else if biased = 0 then
    .finite negative fraction format.leastExponent
  else
    .finite negative (Nat.pow 2 format.fractionBits + fraction)
      (format.leastExponent + (biased - 1 : Nat))

def withSign (format : Format) (negative : Bool) (magnitude : Nat) : Nat :=
  if negative then Nat.pow 2 (format.exponentBits + format.fractionBits) + magnitude else magnitude

/-- The exponent of the leading binary digit of a positive quotient. -/
def binaryExponent (numerator denominator : Nat) : Int :=
  let estimate : Int := (numerator.log2 : Int) - (denominator.log2 : Int)
  if numerator * Nat.pow 2 (-estimate).toNat ≥ denominator * Nat.pow 2 estimate.toNat then estimate
  else estimate - 1

/-- The magnitude bits of the number nearest to a quotient, or `none` if it rounds past the
greatest finite number. A mantissa that rounds up to the next power of two carries into the
exponent field. -/
def roundQuotient? (format : Format) (numerator denominator : Nat) : Option Nat :=
  if numerator = 0 then some 0
  else
    let lead := binaryExponent numerator denominator
    let last := max (lead - format.fractionBits) format.leastExponent
    let mantissa :=
      roundQuotient (numerator * Nat.pow 2 (-last).toNat) (denominator * Nat.pow 2 last.toNat)
    let magnitude := (last - format.leastExponent).toNat * Nat.pow 2 format.fractionBits + mantissa
    if magnitude < format.infinity then some magnitude else none

/-- The magnitude bits nearest to `mantissa * 2 ^ exponent`. -/
def roundScaled? (format : Format) (mantissa : Nat) (exponent : Int) : Option Nat :=
  format.roundQuotient? (mantissa * Nat.pow 2 exponent.toNat) (Nat.pow 2 (-exponent).toNat)

end Format

/-- The binary64 pattern nearest to an integer, or `none` if the integer is too large. -/
def ofInt? (value : Int) : Option UInt64 :=
  (double.roundQuotient? value.natAbs 1).map fun magnitude =>
    UInt64.ofNat (double.withSign (value < 0) magnitude)

/-- The binary64 pattern nearest to the quotient of an integer by a positive number. -/
def ofQuotient? (value : Int) (divisor : Nat) : Option UInt64 :=
  (double.roundQuotient? value.natAbs divisor).map fun magnitude =>
    UInt64.ofNat (double.withSign (value < 0) magnitude)

def ofBits (bits : UInt64) : Number :=
  double.decode bits.toNat

end LexKit.Real
