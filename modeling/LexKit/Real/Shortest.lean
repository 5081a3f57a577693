import LexKit.Real.Decimal

/-!
# The shortest decimal that identifies a number

Among the decimals that read back to a given binary64 number, `shortest` selects one with the fewest
digits, and of those the nearest. A decimal reads back when it lies in the interval of reals that
round to the number: from halfway to the neighbour below to halfway to the neighbour above, with
both ends if the mantissa is even.
-/

set_option autoImplicit false

namespace LexKit.Real

/-- `digits * 10 ^ exponent`. -/
structure Scaled where
  digits : Nat
  exponent : Int
deriving DecidableEq, Repr

/-- Compares `digits * 10 ^ exponent` with `quarters * 2 ^ (magnitude.exponent - 2)`. -/
def compareQuarters (decimal : Scaled) (quarters : Nat) (magnitude : Magnitude) : Ordering :=
  let binary := magnitude.exponent - 2
  compare (decimal.digits * Nat.pow 10 decimal.exponent.toNat * Nat.pow 2 (-binary).toNat)
    (quarters * Nat.pow 2 binary.toNat * Nat.pow 10 (-decimal.exponent).toNat)

/-- Below a power of two that is not the least one, the neighbour is half as far away. -/
def isNarrowBelow (magnitude : Magnitude) : Bool :=
  magnitude.mantissa == Nat.pow 2 52 && magnitude.exponent != double.leastExponent

/-- A decimal lies among the reals that round to the number. -/
def readsBack (magnitude : Magnitude) (decimal : Scaled) : Bool :=
  let below := 4 * magnitude.mantissa - (if isNarrowBelow magnitude then 1 else 2)
  let above := 4 * magnitude.mantissa + 2
  let closed := magnitude.mantissa % 2 == 0
  let low := compareQuarters decimal below magnitude
  let high := compareQuarters decimal above magnitude
  (low == .gt || (closed && low == .eq)) && (high == .lt || (closed && high == .eq))

/-- The better of the two neighbours of a magnitude on the grid of `count` significant digits, if
one of them reads back: the nearer one, and of two equally near ones the even one. -/
def onGrid? (magnitude : Magnitude) (count : Nat) : Option Scaled :=
  let unit := decimalExponent magnitude - ((count : Int) - 1)
  let numerator := magnitude.numerator * Nat.pow 10 (-unit).toNat
  let denominator := magnitude.denominator * Nat.pow 10 unit.toNat
  let below : Scaled := ⟨numerator / denominator, unit⟩
  let above : Scaled := ⟨numerator / denominator + 1, unit⟩
  match readsBack magnitude below, readsBack magnitude above with
  | true, true => some ⟨roundQuotient numerator denominator, unit⟩
  | true, false => some below
  | false, true => some above
  | false, false => none

/-- The decimal with the fewest digits that reads back to a positive magnitude; seventeen digits
always do, and the exact value in quotient form is never reached. -/
def shortest (magnitude : Magnitude) : Scaled :=
  ((List.range' 1 17).findSome? (onGrid? magnitude)).getD
    ⟨magnitude.mantissa * Nat.pow 5 (-magnitude.exponent).toNat *
        Nat.pow 2 magnitude.exponent.toNat,
      min magnitude.exponent 0⟩

/-- The digits of a decimal without trailing zeros, and the exponent of its leading digit. -/
def Scaled.leading (decimal : Scaled) : List Char × Int :=
  let digits := Nat.toDigits 10 decimal.digits
  let kept := (digits.reverse.dropWhile (· == '0')).reverse
  (kept, decimal.exponent + (digits.length - 1 : Nat))

/-- The layout of a finite positive number: positional with at least one place while the exponent of
the leading digit is from -4 to 15, otherwise with a signed exponent of at least two digits. -/
def layout (digits : List Char) (exponent : Int) : List Char :=
  if -4 ≤ exponent ∧ exponent < 0 then
    '0' :: '.' :: List.replicate (-exponent - 1).toNat '0' ++ digits
  else if 0 ≤ exponent ∧ exponent < 16 then
    let whole := exponent.toNat + 1
    let fraction := digits.drop whole
    digits.take whole ++ List.replicate (whole - digits.length) '0' ++
      '.' :: (if fraction.isEmpty then ['0'] else fraction)
  else
    let fraction := digits.drop 1
    digits.take 1 ++ (if fraction.isEmpty then [] else '.' :: fraction) ++
      'e' :: (if exponent < 0 then '-' else '+') :: paddedDigits 2 exponent.natAbs

/-- The text that identifies a number: the fewest digits that read back, `inf` or `nan`. -/
def Number.identify : Number → String
  | .notANumber .. => "nan"
  | .infinite negative => if negative then "-inf" else "inf"
  | .finite negative mantissa exponent =>
      let magnitude :=
        if mantissa = 0 then ['0', '.', '0']
        else
          let (digits, lead) := (shortest ⟨mantissa, exponent⟩).leading
          layout digits lead
      String.ofList (if negative then '-' :: magnitude else magnitude)

end LexKit.Real
