import LexKit.Quantity
import LexKit.Text.Quoted

/-!
# Faults

What can go wrong in storage, buffers and cursors. Each constructor is one cause. Some causes have a
message; the others are told apart by their kind alone.
-/

set_option autoImplicit false

namespace LexKit

inductive Fault where
  /-- A block of negative size was requested. -/
  | negativeSize (size : Quantity)
  /-- The heap cannot supply a block of this size. -/
  | heapExhausted (size : Int)
  /-- A size does not fit the machine's sizes at all. -/
  | sizeOverflow
  /-- Memory outside any allocator could not be had. -/
  | outOfMemory
  | negativeCapacity (capacity : Quantity)
  | arenaClosed
  | arenaExhausted (requested remaining : Int) (capacity : Nat)
  /-- There is no run of a negative number of zeros. -/
  | negativeFill
  | indexOutOfRange (index : Quantity) (count : Nat)
  | popFromEmpty
  | negativeLength (count : Quantity)
  | invalidFormat
  /-- An item format does not take this value. -/
  | rejectedValue
  | floatTooLarge
  /-- The number of items of size zero that fit a block is undefined. -/
  | zeroItemSize
  /-- Elements that do not hold exactly one item cannot be listed. -/
  | notSingleItem
  /-- An element without items has no first one. -/
  | noItem
  /-- An item lacks the count of its bytes. -/
  | unreadable
  /-- A byte index lies outside the bytes it is applied to. -/
  | byteIndexOutOfRange
  /-- A byte must lie between 0 and 255. -/
  | notByte
  /-- The empty block and bytes that never change cannot be written to. -/
  | readOnly
  /-- Text or bytes were expected. -/
  | notText (typeName : String)
  | delimiterLength (delimiter : Bytes)
  | notToken (shown : String)
  /-- A value of another type was expected. -/
  | wrongType
  /-- The operation does not exist for this object. -/
  | unsupported
  | positionOutOfRange
deriving DecidableEq, Repr

namespace Fault

def exhaustedMessage (requested remaining capacity : Quantity) : String :=
  "arena exhausted: requested " ++ requested.text ++ " bytes, " ++ remaining.text ++ " of " ++
    capacity.text ++ " remaining"

def rangeMessage (index count : Quantity) : String :=
  "index " ++ index.text ++ " out of range for buffer of length " ++ count.text

def message? : Fault → Option String
  | negativeSize size => some ("cannot allocate a negative size (" ++ size.text ++ " bytes)")
  | heapExhausted size => some ("heap exhausted allocating " ++ toString size ++ " bytes")
  | negativeCapacity capacity =>
      some ("arena capacity must be non-negative, got " ++ capacity.text)
  | arenaClosed => some "allocation from a closed arena"
  | arenaExhausted requested remaining capacity =>
      some (exhaustedMessage (.int requested) (.int remaining) (.int capacity))
  | indexOutOfRange index count => some (rangeMessage index (.int count))
  | popFromEmpty => some "pop from an empty buffer"
  | negativeLength count => some ("cannot resize buffer to negative length " ++ count.text)
  | notText typeName => some ("expected text or bytes, got " ++ typeName)
  | delimiterLength delimiter =>
      some ("delimiter must be a single byte, got " ++ Text.quoteBytes delimiter)
  | notToken shown => some ("not a token: " ++ shown)
  | _ => none

end Fault

end LexKit
