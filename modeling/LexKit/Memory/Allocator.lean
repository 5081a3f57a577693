import LexKit.Fault
import LexKit.Memory.Block

/-!
# Memory and its allocators

A memory holds storages, allocators, and the record of all calls made to the allocators. The heap
makes a new storage for each block that the machine below it supplies. An arena hands out
consecutive parts of one region; it takes single blocks back only in name, and a reset makes the
whole region available again. Every block is zero-filled when it is handed out, also over bytes that
were in use before a reset.
-/

set_option autoImplicit false

namespace LexKit

/-- An arena that is closed has no region. -/
structure Arena where
  region : Option Extent
  used : Nat
deriving DecidableEq, Repr

namespace Arena

def capacity (arena : Arena) : Nat :=
  match arena.region with
  | some region => region.size
  | none => 0

/-- What is left of the capacity. It is negative where the region was withdrawn. -/
def remaining (arena : Arena) : Int :=
  arena.capacity - arena.used

/-- The arena without the given region, if that is its own. -/
def without (arena : Arena) (region : Extent) : Arena :=
  if arena.region = some region then { arena with region := none } else arena

end Arena

inductive Allocator where
  | heap
  | arena (arena : Arena)
deriving DecidableEq, Repr

instance : Inhabited Allocator := ⟨.heap⟩

structure AllocatorId where
  index : Nat
deriving DecidableEq, Repr

inductive AllocatorCall where
  | allocate (allocator : AllocatorId) (size : Int) (result : Option Extent)
  | free (allocator : AllocatorId) (block : Block) (released : Bool)
deriving DecidableEq, Repr

/-- What new storages are made of. Which sizes it supplies is its own affair, and may change from
one request to the next: it refuses a size after so many more requests of allocators. -/
structure Machine where
  refuses : Nat → Int → Bool

namespace Machine

def unlimited : Machine :=
  ⟨fun _ _ => false⟩

def next (machine : Machine) : Machine :=
  ⟨fun count => machine.refuses (count + 1)⟩

/-- Every request, granted or not, brings the machine to its next moment. -/
def behind (machine : Machine) : AllocatorCall → Machine
  | .allocate .. => machine.next
  | .free .. => machine

end Machine

structure Memory where
  storages : Array Storage
  allocators : Array Allocator
  /-- The calls made so far, the last one first. -/
  calls : List AllocatorCall
  machine : Machine

/-- An action on memory. What it did before it failed stays done. -/
abbrev MemoryM := EStateM Fault Memory

namespace Memory

def empty (machine : Machine := .unlimited) : Memory :=
  ⟨#[], #[], [], machine⟩

def lacks (memory : Memory) (size : Int) : Bool :=
  memory.machine.refuses 0 size

def storage (memory : Memory) (id : StorageId) : Storage :=
  memory.storages.getD id.index (Storage.zeros 0)

def allocator (memory : Memory) (id : AllocatorId) : Allocator :=
  memory.allocators.getD id.index .heap

def addStorage (memory : Memory) (storage : Storage) : StorageId × Memory :=
  (⟨memory.storages.size⟩, { memory with storages := memory.storages.push storage })

def addAllocator (memory : Memory) (allocator : Allocator) : AllocatorId × Memory :=
  (⟨memory.allocators.size⟩, { memory with allocators := memory.allocators.push allocator })

def updateStorage (memory : Memory) (id : StorageId) (change : Storage → Storage) : Memory :=
  { memory with storages := memory.storages.modify id.index change }

def setAllocator (memory : Memory) (id : AllocatorId) (allocator : Allocator) : Memory :=
  { memory with allocators := memory.allocators.setIfInBounds id.index allocator }

def record (memory : Memory) (call : AllocatorCall) : Memory :=
  { memory with calls := call :: memory.calls, machine := memory.machine.behind call }

def read (memory : Memory) (extent : Extent) : Bytes :=
  (memory.storage extent.storage).read extent.start extent.size

def write (memory : Memory) (storage : StorageId) (start : Nat) (bytes : Bytes) : Memory :=
  memory.updateStorage storage (·.write start bytes)

end Memory

/-- The greatest size that the machine can count. -/
def maxSize : Int :=
  0x7FFFFFFFFFFFFFFF

namespace Memory

/-- The outcome of a request to an allocator, before it is recorded. The heap refuses negative sizes
and what the machine cannot count or lacks. An arena refuses every request once it is closed, and
otherwise negative sizes and sizes that exceed what remains. A refusal leaves the memory as it
was. -/
def grant (memory : Memory) (id : AllocatorId) (size : Int) : Except Fault Extent × Memory :=
  match memory.allocator id with
  | .heap =>
      if size < 0 then (.error (.negativeSize (.int size)), memory)
      else if size > maxSize then (.error .sizeOverflow, memory)
      else if memory.lacks size then (.error (.heapExhausted size), memory)
      else
        let (storage, grown) := memory.addStorage (Storage.zeros size.toNat)
        (.ok ⟨storage, 0, size.toNat⟩, grown)
  | .arena arena =>
      match arena.region with
      | none => (.error .arenaClosed, memory)
      | some region =>
          if size < 0 then (.error (.negativeSize (.int size)), memory)
          else if arena.used + size > region.size then
            (.error (.arenaExhausted size arena.remaining arena.capacity), memory)
          else
            let extent : Extent := ⟨region.storage, region.start + arena.used, size.toNat⟩
            let cleared := memory.updateStorage region.storage (·.zero extent.start extent.size)
            (.ok extent, cleared.setAllocator id (.arena ⟨some region, arena.used + size.toNat⟩))

/-- Requests a zero-filled extent of exactly `size` bytes. -/
def allocate (id : AllocatorId) (size : Int) : MemoryM Extent := fun memory =>
  match memory.grant id size with
  | (.ok extent, after) => .ok extent (after.record (.allocate id size (some extent)))
  | (.error fault, after) => .error fault (after.record (.allocate id size none))

/-- The allocator takes the block back: the heap any block, an arena only one within its region. -/
def takesBack (memory : Memory) (id : AllocatorId) (block : Block) : Bool :=
  match memory.allocator id with
  | .heap => true
  | .arena arena =>
      match arena.region with
      | none => false
      | some region => (Block.ofExtent region).contains block

/-- Gives a block back. The result tells whether it was taken; if so the caller's handle is to
become empty. No storage changes. -/
def free (id : AllocatorId) (block : Block) : MemoryM Bool := fun memory =>
  let taken := memory.takesBack id block
  .ok taken (memory.record (.free id block taken))

/-- Makes all that the allocator can reclaim at once available again. -/
def reset (id : AllocatorId) : MemoryM Unit := fun memory =>
  match memory.allocator id with
  | .heap => .ok () memory
  | .arena arena => .ok () (memory.setAllocator id (.arena ⟨arena.region, 0⟩))

/-- Drops the region of an arena. Blocks issued before keep their bytes. -/
def close (id : AllocatorId) : MemoryM Unit := fun memory =>
  match memory.allocator id with
  | .heap => .ok () memory
  | .arena _ => .ok () (memory.setAllocator id (.arena ⟨none, 0⟩))

/-- Takes a region away from all arenas over it. What they count as used stays. -/
def withdraw (region : Extent) : MemoryM Unit :=
  modify fun memory =>
    let without : Allocator → Allocator
      | .heap => .heap
      | .arena arena => .arena (arena.without region)
    { memory with allocators := memory.allocators.map without }

/-- A second allocator in the state of the first one. Two arenas over one region each count their
own use, so their blocks may overlap. -/
def duplicate (id : AllocatorId) : MemoryM AllocatorId := fun memory =>
  let (copy, changed) := memory.addAllocator (memory.allocator id)
  .ok copy changed

def newHeap : MemoryM AllocatorId := fun memory =>
  let (id, changed) := memory.addAllocator .heap
  .ok id changed

/-- An arena that was closed from the beginning. -/
def newClosedArena : MemoryM AllocatorId := fun memory =>
  let (id, changed) := memory.addAllocator (.arena ⟨none, 0⟩)
  .ok id changed

/-- A storage of zeros of its own, from no allocator. A negative size counts as none. -/
def newStorage (size : Int) : MemoryM StorageId := fun memory =>
  if size > maxSize then .error .sizeOverflow memory
  else if memory.lacks size then .error .outOfMemory memory
  else
    let (id, changed) := memory.addStorage (Storage.zeros size.toNat)
    .ok id changed

def newArena (capacity : Int) : MemoryM AllocatorId := do
  if capacity < 0 then throw (.negativeCapacity (.int capacity))
  let storage ← newStorage capacity
  let memory ← get
  let (id, changed) := memory.addAllocator (.arena ⟨some ⟨storage, 0, capacity.toNat⟩, 0⟩)
  set changed
  return id

/-- Bytes that stand in front of every run of bytes; with them it must not exceed the machine's
sizes. -/
def runHeader : Int :=
  33

/-- The length of a run of zeros, if there is room for one of this length. -/
def zeroCount (memory : Memory) (size : Int) : Except Fault Nat :=
  if size < -(maxSize + 1) then .error .sizeOverflow
  else if size < 0 then .error .negativeFill
  else if size > maxSize - runHeader then .error .sizeOverflow
  else if memory.lacks size then .error .outOfMemory
  else .ok size.toNat

/-- Zeroes the bytes that a block covers. As a slice is replaced by as many zeros as the block's
size says, a block that reaches out of its storage makes the storage longer or shorter. -/
def zeroBlock (block : Block) : MemoryM Unit := fun memory =>
  match block.storage with
  | none => .ok () memory
  | some id =>
      if block.size = 0 then .ok () memory
      else
        match memory.zeroCount block.size with
        | .error fault => .error fault memory
        | .ok fill =>
            let (first, count) := block.range (memory.storage id).size
            let change : Storage → Storage := fun storage =>
              if count = fill then storage.zero first fill
              else storage.splice first (first + count) fill
            .ok () (memory.updateStorage id change)

/-- The place in its storage of a byte of a block. The index may count from the block's end. -/
def bytePlace? (memory : Memory) (block : Block) (index : Int) : Option (StorageId × Nat) :=
  block.storage.bind fun id =>
    let (first, count) := block.range (memory.storage id).size
    let place := if index < 0 then index + count else index
    if place < 0 ∨ place ≥ count then none else some (id, first + place.toNat)

def poke (block : Block) (index value : Int) : MemoryM Unit := fun memory =>
  if block.isEmpty then .error .readOnly memory
  else
    match memory.bytePlace? block index with
    | none => .error .byteIndexOutOfRange memory
    | some (id, place) =>
        if value < 0 ∨ value > 255 then .error .notByte memory
        else .ok () (memory.write id place [UInt8.ofNat value.toNat])

end Memory

end LexKit
