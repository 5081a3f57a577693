import LexKit.Real.Binary

/-!
# Arithmetic on binary64 patterns

Numbers are added, subtracted, multiplied and divided with the usual rounding. An operand that is
not a number comes out as the result, with its sign and its fraction; it only becomes quiet. Of two
such operands the left one comes out. An operation on two numbers that has no result gives one
particular pattern, which is negative.
-/

set_option autoImplicit false

namespace LexKit.Real

def isNumber (bits : UInt64) : Bool :=
  match ofBits bits with
  | .notANumber .. => false
  | _ => true

def quieted (bits : UInt64) : UInt64 :=
  bits ||| UInt64.ofNat double.quietBit

def invalid : UInt64 :=
  UInt64.ofNat (double.withSign true (double.infinity + double.quietBit))

/-- The result of an operation that is known for numbers. -/
def combine (operation : Float → Float → Float) (left right : UInt64) : UInt64 :=
  if !isNumber left then quieted left
  else if !isNumber right then quieted right
  else
    let result := operation (Float.ofBits left) (Float.ofBits right)
    if result.isNaN then invalid else result.toBits

def sum : UInt64 → UInt64 → UInt64 :=
  combine (· + ·)

def difference : UInt64 → UInt64 → UInt64 :=
  combine (· - ·)

def product : UInt64 → UInt64 → UInt64 :=
  combine (· * ·)

def quotient : UInt64 → UInt64 → UInt64 :=
  combine (· / ·)

end LexKit.Real
