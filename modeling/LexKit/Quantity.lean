import LexKit.Real.Arithmetic
import LexKit.Real.Shortest
import LexKit.Text.Digit

/-!
# Quantities

A number as a user gave it: an integer, a truth value that stands for 0 or 1, or a real number. Its
form matters where it is shown; comparisons look at the exact number alone.
-/

set_option autoImplicit false

namespace LexKit

namespace Real.Number

/-- Compares `left * 2 ^ leftExponent` with `right * 2 ^ rightExponent`. -/
def compareScaled (left leftExponent right rightExponent : Int) : Ordering :=
  let least := min leftExponent rightExponent
  compare (left * (Nat.pow 2 (leftExponent - least).toNat : Nat))
    (right * (Nat.pow 2 (rightExponent - least).toNat : Nat))

def signed (negative : Bool) (mantissa : Nat) : Int :=
  if negative then -mantissa else mantissa

/-- The order of two numbers, exactly; what is not a number stands in no order. -/
def order? : Number → Number → Option Ordering
  | .notANumber .., _ => none
  | _, .notANumber .. => none
  | .finite leftNegative left leftExponent, .finite rightNegative right rightExponent =>
      some (compareScaled (signed leftNegative left) leftExponent (signed rightNegative right)
        rightExponent)
  | .infinite left, .infinite right => some (compare (signed left 1) (signed right 1))
  | .infinite negative, .finite .. => some (if negative then .lt else .gt)
  | .finite .., .infinite negative => some (if negative then .gt else .lt)

end Real.Number

inductive Quantity where
  | int (value : Int)
  | flag (value : Bool)
  | real (bits : UInt64)
deriving DecidableEq, Repr

namespace Quantity

/-- The integer that an integer or a truth value stands for. -/
def whole? : Quantity → Option Int
  | int value => some value
  | flag value => some (if value then 1 else 0)
  | real _ => none

def number : Quantity → Real.Number
  | int value => .finite (value < 0) value.natAbs 0
  | flag value => .finite false value.toNat 0
  | real bits => Real.ofBits bits

def order? (left right : Quantity) : Option Ordering :=
  left.number.order? right.number

def isLess (left right : Quantity) : Bool :=
  left.order? right == some .lt

def isAtMost (left right : Quantity) : Bool :=
  left.isLess right || left.order? right == some .eq

def isNegative (quantity : Quantity) : Bool :=
  quantity.isLess (.int 0)

def isZero (quantity : Quantity) : Bool :=
  quantity.order? (.int 0) == some .eq

/-- The binary64 pattern nearest to a quantity, or `none` if an integer is too large for one. -/
def bits? : Quantity → Option UInt64
  | real bits => some bits
  | int value => Real.ofInt? value
  | flag value => Real.ofInt? (if value then 1 else 0)

/-- The sum: of integers an integer, else a real number. There is none if an integer is too large to
become a real number. -/
def add? (left right : Quantity) : Option Quantity :=
  match left.whole?, right.whole? with
  | some left, some right => some (.int (left + right))
  | _, _ =>
      match left.bits?, right.bits? with
      | some left, some right => some (.real (Real.sum left right))
      | _, _ => none

def times (quantity : Quantity) (count : Nat) : Quantity :=
  match quantity with
  | int value => .int (value * count)
  | flag value => .int (if value then count else 0)
  | real bits => .real (Real.product bits (Float.ofNat count).toBits)

/-- A quantity can be shown unless it is an integer with too many digits. -/
def isShowable : Quantity → Bool
  | int value => decide (value.natAbs < Nat.pow 10 Text.digitLimit)
  | _ => true

def text : Quantity → String
  | int value => toString value
  | flag value => if value then "True" else "False"
  | real bits => (Real.ofBits bits).identify

end Quantity

end LexKit
