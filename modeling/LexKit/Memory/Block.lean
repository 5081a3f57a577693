import LexKit.Memory.Storage

/-!
# Blocks

An *extent* is a run of bytes of one storage as an allocator hands it out. A *block* is a handle
that a caller holds: it refers to an extent, or it is empty, or it was placed by hand, in which case
nothing is known of its bounds. The bounds of a block are read the way slices are: a negative bound
counts from the end of the storage, and a bound outside the storage is moved to the nearer end.
-/

set_option autoImplicit false

namespace LexKit

structure StorageId where
  index : Nat
deriving DecidableEq, Repr

structure Extent where
  storage : StorageId
  start : Nat
  size : Nat
deriving DecidableEq, Repr

namespace Extent

def stop (extent : Extent) : Nat :=
  extent.start + extent.size

end Extent

/-- A block without a storage is empty. -/
structure Block where
  storage : Option StorageId
  start : Int
  size : Int
deriving DecidableEq, Repr

namespace Block

def empty : Block :=
  ⟨none, 0, 0⟩

def ofExtent (extent : Extent) : Block :=
  ⟨some extent.storage, extent.start, extent.size⟩

def isEmpty (block : Block) : Bool :=
  block.storage.isNone

def stop (block : Block) : Int :=
  block.start + block.size

/-- `small` lies entirely within `big`; an empty block contains nothing. -/
def contains (big small : Block) : Bool :=
  match big.storage with
  | none => false
  | some storage =>
      small.storage == some storage && decide (big.start ≤ small.start) &&
        decide (small.stop ≤ big.stop)

end Block

/-- A slice bound, moved into a sequence of `size` elements. -/
def sliceBound (size : Nat) (bound : Int) : Nat :=
  if bound < 0 then (bound + size).toNat else min bound.toNat size

namespace Block

/-- The range of a storage of `size` bytes that a block covers, as a first offset and a count. -/
def range (block : Block) (size : Nat) : Nat × Nat :=
  let first := sliceBound size block.start
  (first, sliceBound size block.stop - first)

end Block

end LexKit
