import LexKit.Byte
import LexKit.Real.Shortest
import LexKit.Text.Quoted

/-!
# Dynamic values

Buffers hold items of a format that is known only when the program runs, so a value says by itself
what it is. Floating-point values are kept as binary64 patterns: every pattern is a value of its
own.
-/

set_option autoImplicit false

namespace LexKit

inductive Value where
  | none
  | bool (value : Bool)
  | int (value : Int)
  | real (bits : UInt64)
  | text (value : String)
  | bytes (value : Bytes)
  /-- Bytes that their owner may still change. -/
  | mutableBytes (value : Bytes)
  /-- Anything else: it counts as true or false, and has a type. -/
  | object (typeName : String) (truth : Bool)
deriving DecidableEq, Repr, Inhabited

namespace Value

def isZeroReal (bits : UInt64) : Bool :=
  bits.toNat % 0x8000000000000000 == 0

/-- A value counts as false when it is absent, zero or empty. -/
def truth : Value → Bool
  | .none => false
  | .bool value => value
  | .int value => value != 0
  | .real bits => !isZeroReal bits
  | .text value => !value.isEmpty
  | .bytes value => !value.isEmpty
  | .mutableBytes value => !value.isEmpty
  | .object _ truth => truth

def typeName : Value → String
  | .none => "NoneType"
  | .bool _ => "bool"
  | .int _ => "int"
  | .real _ => "float"
  | .text _ => "str"
  | .bytes _ => "bytes"
  | .mutableBytes _ => "bytearray"
  | .object typeName _ => typeName

def int? : Value → Option Int
  | .int value => some value
  | .bool value => some (if value then 1 else 0)
  | _ => Option.none

/-- Floating-point equality of two patterns: zeros of both signs are equal, and what is not a number
equals nothing. -/
def realsEqual (left right : UInt64) : Bool :=
  match Real.ofBits left, Real.ofBits right with
  | .notANumber .., _ => false
  | _, .notANumber .. => false
  | _, _ => left == right || (isZeroReal left && isZeroReal right)

def same : Value → Value → Bool
  | .bool left, .bool right => left == right
  | .int left, .int right => left == right
  | .real left, .real right => realsEqual left right
  | .bytes left, .bytes right => left == right
  | _, _ => false

def sameList : List Value → List Value → Bool
  | [], [] => true
  | left :: lefts, right :: rights => same left right && sameList lefts rights
  | _, _ => false

def shown : Value → String
  | .none => "None"
  | .bool value => if value then "True" else "False"
  | .int value => toString value
  | .real bits => (Real.ofBits bits).identify
  | .text value => Text.quote value
  | .bytes value => Text.quoteBytes value
  | .mutableBytes value => Text.quoteMutableBytes value
  | .object typeName _ => "<" ++ typeName ++ ">"

def shownList (values : List Value) : String :=
  "[" ++ ", ".intercalate (values.map shown) ++ "]"

end Value

end LexKit
