import LexKit.Buffer.Layout
import LexKit.Buffer.Value
import LexKit.Fault

/-!
# Items as bytes

The bytes that stand for one item, and the value that the bytes of an item stand for. An item type
takes some values and rejects the others: integers must be in range, floating-point items take
numbers, and a truth item takes anything. A value that is rejected may leave bytes behind.
-/

set_option autoImplicit false

namespace LexKit

def littleEndian : Nat → Nat → Bytes
  | 0, _ => []
  | width + 1, value => UInt8.ofNat (value % 256) :: littleEndian width (value / 256)

def ofLittleEndian (bytes : Bytes) : Nat :=
  bytes.foldr (fun byte value => byte.toNat + 256 * value) 0

def orderedBytes (bigEndian : Bool) (width value : Nat) : Bytes :=
  if bigEndian then (littleEndian width value).reverse else littleEndian width value

def ofOrderedBytes (bigEndian : Bool) (bytes : Bytes) : Nat :=
  ofLittleEndian (if bigEndian then bytes.reverse else bytes)

namespace Real.Format

/-- Narrows a number to a format. A number that is none keeps its sign and, where the format is wide
enough to show it, the leading part of its fraction. `none` if a finite number is too large. -/
def narrow? (format : Format) : Number → Option Nat
  | .notANumber negative fraction =>
      let kept := if format.fractionBits < 20 then 0
        else fraction / Nat.pow 2 (double.fractionBits - format.fractionBits) % format.quietBit
      some (format.withSign negative (format.infinity + format.quietBit + kept))
  | .infinite negative => some (format.withSign negative format.infinity)
  | .finite negative mantissa exponent =>
      (format.roundScaled? mantissa exponent).map (format.withSign negative)

/-- Widens the number that a pattern of a narrower format denotes to a binary64 pattern. -/
def widen (format : Format) (bits : Nat) : Nat :=
  match format.decode bits with
  | .notANumber negative fraction =>
      let kept := if format.fractionBits < 20 then 0
        else fraction % format.quietBit * Nat.pow 2 (double.fractionBits - format.fractionBits)
      double.withSign negative (double.infinity + double.quietBit + kept)
  | .infinite negative => double.withSign negative double.infinity
  | .finite negative mantissa exponent =>
      double.withSign negative ((double.roundScaled? mantissa exponent).getD 0)

end Real.Format

namespace FieldType

def size : FieldType → Nat
  | .integer _ width => width
  | .address => 8
  | .float format => format.width / 8
  | .truth => 1
  | .character => 1
  | .fixedBytes length => length
  | .countedBytes length => length

def integerPattern? (signed : Bool) (width : Nat) (value : Int) : Option Nat :=
  let span : Int := Nat.pow 2 (8 * width)
  let low : Int := if signed then -(span / 2) else 0
  if low ≤ value ∧ value < low + span then some (value % span).toNat else none

def ofIntegerPattern (signed : Bool) (width pattern : Nat) : Int :=
  if signed ∧ 2 * pattern ≥ Nat.pow 2 (8 * width) then (pattern : Int) - Nat.pow 2 (8 * width)
  else pattern

/-- The pattern of a real number in a floating-point item. A number that rounds past the greatest
one is too large; only single numbers in native layout become infinite instead. -/
def realPattern (isNative : Bool) (format : Real.Format) (bits : UInt64) : Except Fault Nat :=
  if format = Real.double then .ok bits.toNat
  else
    let number := Real.ofBits bits
    match format.narrow? number, number with
    | some pattern, _ => .ok pattern
    | none, .finite negative _ _ =>
        if isNative ∧ format = Real.single then .ok (format.withSign negative format.infinity)
        else .error .floatTooLarge
    | none, _ => .error .floatTooLarge

/-- The pattern of an integer in a floating-point item; one that is too large is rejected. -/
def intPattern (isNative : Bool) (format : Real.Format) (value : Int) : Except Fault Nat :=
  match Real.ofInt? value with
  | none => .error .rejectedValue
  | some bits =>
      match realPattern isNative format bits with
      | .ok pattern => .ok pattern
      | .error _ => .error .rejectedValue

def fixedContent (length : Nat) (content : Bytes) : Bytes :=
  content.take length ++ List.replicate (length - content.length) 0

/-- The pattern of a number in an address: that of a signed number if it is negative, else that of
an unsigned one. -/
def addressPattern? (value : Int) : Option Nat :=
  integerPattern? (value < 0) 8 value

/-- The bytes of counted content: the count, at most 255, and then the content that fits. The count
is written also where there is no room for it; it is one less than none then, modulo 256. -/
def countedContent (length : Nat) (content : Bytes) : Bytes :=
  if length = 0 then [255]
  else
    let kept := content.take (length - 1)
    fixedContent length (UInt8.ofNat (min kept.length 255) :: kept)

def encode (type : FieldType) (isNative bigEndian : Bool) (value : Value) : Except Fault Bytes :=
  match type with
  | .integer signed width =>
      match value.int? with
      | some number =>
          match integerPattern? signed width number with
          | some pattern => .ok (orderedBytes bigEndian width pattern)
          | none => .error .rejectedValue
      | none => .error .rejectedValue
  | .address =>
      match value.int?.bind addressPattern? with
      | some pattern => .ok (orderedBytes bigEndian 8 pattern)
      | none => .error .rejectedValue
  | .float format =>
      let pattern :=
        match value with
        | .real bits => realPattern isNative format bits
        | .int number => intPattern isNative format number
        | .bool flag => intPattern isNative format (if flag then 1 else 0)
        | _ => .error .rejectedValue
      pattern.map (orderedBytes bigEndian (format.width / 8))
  | .truth => .ok [if value.truth then 1 else 0]
  | .character =>
      match value with
      | .bytes [byte] => .ok [byte]
      | _ => .error .rejectedValue
  | .fixedBytes length =>
      match value with
      | .bytes content => .ok (fixedContent length content)
      | .mutableBytes content => .ok (fixedContent length content)
      | _ => .error .rejectedValue
  | .countedBytes length =>
      match value with
      | .bytes content => .ok (countedContent length content)
      | .mutableBytes content => .ok (countedContent length content)
      | _ => .error .rejectedValue

/-- What a rejected value leaves in the cleared place of an item. Numbers of eight bytes in
big-endian order are written from the last byte on, and only then found to be out of range: what
stands there is the number modulo 2 ^ 64. A negative number is refused as an unsigned one before
that. -/
def residue (type : FieldType) (bigEndian : Bool) (value : Value) : Bytes :=
  match type, value.int? with
  | .integer signed 8, some number =>
      if bigEndian ∧ (signed ∨ 0 ≤ number) then
        orderedBytes true 8 (number % (Nat.pow 2 64 : Nat)).toNat
      else []
  | _, _ => []

def decode (type : FieldType) (bigEndian : Bool) (bytes : Bytes) : Value :=
  match type with
  | .integer signed width => .int (ofIntegerPattern signed width (ofOrderedBytes bigEndian bytes))
  | .address => .int (ofOrderedBytes bigEndian bytes)
  | .float format =>
      let pattern := ofOrderedBytes bigEndian bytes
      .real (UInt64.ofNat (if format = Real.double then pattern else format.widen pattern))
  | .truth => .bool (bytes.any (· != 0))
  | .character => .bytes bytes
  | .fixedBytes _ => .bytes bytes
  | .countedBytes _ =>
      match bytes with
      | [] => .bytes []
      | count :: content => .bytes (content.take count.toNat)

end FieldType

end LexKit
