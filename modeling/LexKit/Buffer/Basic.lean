import LexKit.Buffer.Item
import LexKit.Memory.Allocator

/-!
# Growable buffers

A buffer is a sequence of equally laid out elements in one block of memory. It owns its block alone.
It grows through its allocator by doubling, and never shrinks. A buffer with an inline capacity
begins in a block of its own that no allocator sees; when it outgrows that block it moves to an
allocated one.

Elements past the count keep their bytes, so a later `resize` shows them again.
-/

set_option autoImplicit false

namespace LexKit

/-- Whether a buffer holds items of any layout or a text, which is a buffer of bytes. -/
inductive BufferRole where
  | items
  | text
deriving DecidableEq, Repr

structure ItemPlace where
  storage : StorageId
  start : Nat
  type : FieldType
deriving DecidableEq, Repr

structure Buffer where
  allocator : AllocatorId
  role : BufferRole
  layout : Layout
  inlineCapacity : Int
  count : Nat
  block : Option Extent
  /-- The block is the inline one. -/
  isInline : Bool
deriving DecidableEq, Repr

namespace Buffer

def blockSize (buffer : Buffer) : Nat :=
  match buffer.block with
  | some extent => extent.size
  | none => 0

def capacity (buffer : Buffer) : Except Fault Nat :=
  if buffer.layout.size = 0 then .error .zeroItemSize
  else .ok (buffer.blockSize / buffer.layout.size)

def create (allocator : AllocatorId) (role : BufferRole) (layout : Layout) (inlineCapacity : Int) :
    MemoryM Buffer := do
  if inlineCapacity > 0 then
    let size := inlineCapacity * layout.size
    let storage ← Memory.newStorage size
    return ⟨allocator, role, layout, inlineCapacity, 0, some ⟨storage, 0, size.toNat⟩, true⟩
  else
    return ⟨allocator, role, layout, inlineCapacity, 0, none, false⟩

def spawn (buffer : Buffer) : MemoryM Buffer :=
  create buffer.allocator buffer.role buffer.layout buffer.inlineCapacity

def dropBlock (buffer : Buffer) : MemoryM Buffer := do
  match buffer.block with
  | some extent =>
      if !buffer.isInline then
        let _ ← Memory.free buffer.allocator (Block.ofExtent extent)
  | none => pure ()
  return { buffer with block := none, isInline := false }

/-- Grows to hold at least `capacity` elements. The new block is obtained before the old one is
given back, so a failure leaves the buffer as it was. -/
def reserve (buffer : Buffer) (capacity : Int) : MemoryM Buffer := do
  let current ← MonadExcept.ofExcept buffer.capacity
  if capacity ≤ current then return buffer
  let extent ← Memory.allocate buffer.allocator (capacity * buffer.layout.size)
  if let some old := buffer.block then
    modify fun memory => memory.write extent.storage extent.start (memory.read old)
  let dropped ← buffer.dropBlock
  return { dropped with block := some extent }

def leastGrowth : Nat :=
  8

/-- Makes room for one more element: a full buffer doubles, and has then at least eight places. -/
def makeRoom (buffer : Buffer) : MemoryM Buffer := do
  let capacity ← MonadExcept.ofExcept buffer.capacity
  if buffer.count = capacity then buffer.reserve (max leastGrowth (2 * capacity))
  else return buffer

def elementStart (buffer : Buffer) (extent : Extent) (index : Nat) : Nat :=
  extent.start + index * buffer.layout.size

/-- Clears the place of an element, and tells where its item lies. Only an element of one item can
be written to. -/
def openPlace (buffer : Buffer) (index : Nat) : MemoryM ItemPlace := do
  let some extent := buffer.block | throw .rejectedValue
  let some (offset, type) := buffer.layout.singleItem? | throw .rejectedValue
  let start := buffer.elementStart extent index
  modify fun memory => memory.updateStorage extent.storage (·.zero start buffer.layout.size)
  return ⟨extent.storage, start + offset, type⟩

/-- Writes a value into a place that was cleared. A rejected value may leave bytes in it. -/
def fill (buffer : Buffer) (place : ItemPlace) (value : Value) : MemoryM Unit := do
  let write := fun (bytes : Bytes) =>
    modify fun (memory : Memory) => memory.write place.storage place.start bytes
  match place.type.encode buffer.layout.isNative buffer.layout.bigEndian value with
  | .ok bytes => write bytes
  | .error fault => do
      write (place.type.residue buffer.layout.bigEndian value)
      throw fault

def load (buffer : Buffer) (memory : Memory) (extent : Extent) (index offset : Nat)
    (type : FieldType) : Value :=
  let start := buffer.elementStart extent index + offset
  type.decode buffer.layout.bigEndian ((memory.storage extent.storage).read start type.size)

/-- The place of an index among the elements. A real number is no index even where it is in
range. -/
def checkIndex (buffer : Buffer) (index : Quantity) : Except Fault Nat :=
  match index.whole? with
  | some place =>
      if 0 ≤ place ∧ place < buffer.count then .ok place.toNat
      else .error (.indexOutOfRange index buffer.count)
  | none =>
      if Quantity.isAtMost (.int 0) index && index.isLess (.int buffer.count) then
        .error .wrongType
      else .error (.indexOutOfRange index buffer.count)

/-- The element at an index: its first item. -/
def get (buffer : Buffer) (index : Quantity) : MemoryM Value := do
  let place ← MonadExcept.ofExcept (buffer.checkIndex index)
  let some (offset, type) := buffer.layout.firstItem? | throw .noItem
  if !buffer.layout.isReadable then throw .unreadable
  let some extent := buffer.block | throw .noItem
  return buffer.load (← MonadState.get) extent place offset type

/-- The fault of writing a value at a real number: an element of several items is noticed first. -/
def misplacedFault (buffer : Buffer) : Fault :=
  if buffer.layout.singleItem?.isNone then .rejectedValue else .wrongType

def openAt (buffer : Buffer) (index : Quantity) : MemoryM ItemPlace := do
  match buffer.checkIndex index with
  | .ok place => buffer.openPlace place
  | .error .wrongType => throw buffer.misplacedFault
  | .error fault => throw fault

def set (buffer : Buffer) (index : Quantity) (value : Value) : MemoryM Unit := do
  buffer.fill (← buffer.openAt index) value

/-- The element at a place of a block, as a whole. Only elements of one item can be listed. -/
def element (buffer : Buffer) (extent : Extent) (index : Nat) : MemoryM Value := do
  if !buffer.layout.isReadable then throw .unreadable
  let some (offset, type) := buffer.layout.singleItem? | throw .notSingleItem
  return buffer.load (← MonadState.get) extent index offset type

def toList (buffer : Buffer) : MemoryM (List Value) :=
  match buffer.block with
  | none => return []
  | some extent => (List.range buffer.count).mapM (buffer.element extent)

def pop (buffer : Buffer) : MemoryM (Value × Buffer) := do
  if buffer.count = 0 then throw .popFromEmpty
  let value ← buffer.get (.int (buffer.count - 1 : Nat))
  return (value, { buffer with count := buffer.count - 1 })

def clear (buffer : Buffer) : Buffer :=
  { buffer with count := 0 }

/-- Sets the number of elements, making room first if need be. -/
def resize (buffer : Buffer) (count : Int) : MemoryM Buffer := do
  if count < 0 then throw (.negativeLength (.int count))
  let capacity ← MonadExcept.ofExcept buffer.capacity
  let roomy ← if count > capacity then buffer.reserve count else pure buffer
  return { roomy with count := count.toNat }

/-- A buffer of the same make and capacity with the same elements in a block of its own. -/
def copy (buffer : Buffer) : MemoryM Buffer := do
  let clone ← buffer.spawn
  let capacity ← MonadExcept.ofExcept buffer.capacity
  let clone ← clone.reserve capacity
  if let (some source, some target) := (buffer.block, clone.block) then
    modify fun memory =>
      memory.write target.storage target.start
        ((memory.read source).take (buffer.count * buffer.layout.size))
  return { clone with count := buffer.count }

/-- Moves the block and the elements out. The first result owns them; the second is what is left. -/
def take (buffer : Buffer) : MemoryM (Buffer × Buffer) := do
  let moved ← buffer.spawn
  return ({ moved with block := buffer.block, count := buffer.count, isInline := buffer.isInline },
    { buffer with block := none, count := 0, isInline := false })

/-- Gives the block back; the buffer is empty then. -/
def release (buffer : Buffer) : MemoryM Buffer := do
  return (← buffer.dropBlock).clear

/-- The bytes of the whole block, also behind the last element. -/
def rawBytes (buffer : Buffer) (memory : Memory) : Bytes :=
  match buffer.block with
  | some extent => memory.read extent
  | none => []

/-- The bytes of the first `count` bytes of the block: the content of a text. -/
def content (buffer : Buffer) (memory : Memory) : Bytes :=
  (buffer.rawBytes memory).take buffer.count

def createText (allocator : AllocatorId) (inlineCapacity : Int) : MemoryM Buffer :=
  create allocator .text Layout.byteLayout inlineCapacity

/-- Appends a run of bytes to a text. Room is made for exactly these bytes. -/
def appendBytes (buffer : Buffer) (bytes : Bytes) : MemoryM Buffer := do
  if bytes.isEmpty then return buffer
  let roomy ← buffer.reserve (buffer.count + bytes.length : Nat)
  if let some extent := roomy.block then
    modify fun memory => memory.write extent.storage (extent.start + buffer.count) bytes
  return { roomy with count := buffer.count + bytes.length }

def ofBytes (allocator : AllocatorId) (bytes : Bytes) : MemoryM Buffer := do
  (← createText allocator 0).appendBytes bytes

end Buffer

end LexKit
