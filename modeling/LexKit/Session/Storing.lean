import LexKit.Session.Held
import LexKit.Session.Order

/-!
# Allocators and blocks of a session

Sizes and the parts of blocks may be objects of any type. A size is checked before anything else is
done with it, and the log shows it as it was given; a block whose parts are no integers has no bytes
to show.
-/

set_option autoImplicit false

namespace LexKit.SessionM

/-- A new arena. A truth value is a capacity, too, and is shown as such. -/
def newArena (capacity : Object) : SessionM Object := do
  let quantity ← quantityOf capacity
  if quantity.isNegative then fail (.negativeCapacity quantity)
  let id ← onMemory (Memory.newArena (← intOf capacity))
  match quantity, (← get).memory.allocator id with
  | .flag flag, .arena ⟨some region, _⟩ =>
      modify fun session =>
        { session with flagRegions := (region.storage, flag) :: session.flagRegions }
  | _, _ => pure ()
  return .allocator id

def grantWhole (id : AllocatorId) (size : Object) : SessionM PlacedBlock := do
  let session ← get
  match session.memory.grant id (← intOf size) with
  | (.ok extent, after) =>
      set { session with workspace := { session.workspace with memory := after } }
      return PlacedBlock.ofExtent extent size
  | (.error fault, _) => fail fault

/-- The part of a region that an arena supplies. A real number is used up like any other, but the
part at such a place, or of such a size, cannot be zeroed. -/
def grantPart (id : AllocatorId) (arena : Arena) (region : Extent) (size : Object) :
    SessionM PlacedBlock := do
  let session ← get
  let quantity ← quantityOf size
  let start := session.usedOf id arena
  match session.useUp id arena quantity with
  | .error fault => throw fault
  | .ok (.real bits) =>
      set (session.setRealUse id bits)
      if !quantity.isZero then fail .wrongType
      return ⟨.storage region.storage, ← ofQuantity start, size⟩
  | .ok _ => grantWhole id size

def grant (id : AllocatorId) (size : Object) : SessionM PlacedBlock := do
  let session ← get
  if (session.strangers.lookup id).isSome then fail .unsupported
  if let .arena ⟨none, _⟩ := session.memory.allocator id then fail .arenaClosed
  let quantity ← quantityOf size
  if quantity.isNegative then fail (.negativeSize quantity)
  match session.memory.allocator id with
  | .arena ⟨some region, used⟩ => grantPart id ⟨some region, used⟩ region size
  | _ => grantWhole id size

def allocate (id : AllocatorId) (size : Object) : SessionM Object := do
  try
    let block ← grant id size
    record id false size true
    addBlock block
  catch fault =>
    record id false size false
    throw fault

/-- An arena counts in integers again. -/
def forgetRealUse (id : AllocatorId) : SessionM Unit :=
  modify fun session =>
    { session with realUses := session.realUses.filter fun (arena, _) => arena != id }

def reset (id : AllocatorId) : SessionM Unit := do
  onMemory (Memory.reset id)
  forgetRealUse id

/-- Closes an allocator. The region of an arena is gone for its copies, too. -/
def close (id : AllocatorId) : SessionM Unit := do
  let allocator := (← get).memory.allocator id
  onMemory (Memory.close id)
  forgetRealUse id
  match allocator with
  | .arena ⟨some region, _⟩ => onMemory (Memory.withdraw region)
  | _ => return ()

/-- A copy of an allocator. Its calls are logged under the label of the first one. -/
def copyAllocator (id : AllocatorId) : SessionM Object := do
  let copy ← onMemory (Memory.duplicate id)
  let session ← get
  if let some bits := session.realUses.lookup id then set (session.setRealUse copy bits)
  if let some name := session.labels.lookup id then label (.allocator copy) name
  return .allocator copy

def blockOf (object : Object) : SessionM BlockId :=
  match object with
  | .block id => return id
  | _ => fail .unsupported

def stopOf (block : PlacedBlock) : SessionM Object :=
  sum block.start block.size

def contains (big small : PlacedBlock) : SessionM Bool := do
  if !big.storage.isIdentical small.storage then return false
  if !(← isAtMost big.start small.start) then return false
  let smallStop ← stopOf small
  isAtMost smallStop (← stopOf big)

/-- The question whether a block lies within another one. Within the empty block lies nothing,
whatever it is. -/
def containsObject (big small : Object) : SessionM Bool := do
  let big := (← get).block (← blockOf big)
  if big.storage.isNone then return false
  contains big ((← get).block (← blockOf small))

def takesBack (id : AllocatorId) (block : PlacedBlock) : SessionM Bool := do
  match (← get).memory.allocator id with
  | .heap => return true
  | .arena ⟨none, _⟩ => return false
  | .arena ⟨some region, _⟩ => contains (PlacedBlock.ofExtent region (Object.nat region.size)) block

/-- Gives a block back; when it was taken the handle becomes empty. -/
def freeBlock (id : AllocatorId) (blockId : BlockId) : SessionM Object := do
  let block := (← get).block blockId
  let released ← takesBack id block
  record id true block.size released
  if released then setBlock blockId PlacedBlock.empty
  return Object.bool released

/-- Gives a block back. A closed arena takes nothing back, without looking further than to the
size. -/
def free (id : AllocatorId) (object : Object) : SessionM Object := do
  let session ← get
  match object, session.memory.allocator id with
  | .block blockId, _ => freeBlock id blockId
  | .cursor cursor, .arena ⟨none, _⟩ =>
      record id true (Object.nat (session.reader cursor).bytes.length) false
      return Object.bool false
  | _, _ => fail .unsupported

def placeOfBlock (block : PlacedBlock) : SessionM Block := do
  let _ ← stopOf block
  return ⟨none, ← intOf block.start, ← intOf block.size⟩

/-- A window onto a part of bytes that never change. -/
def windowOnto (bytes : Bytes) (placed : Block) : SessionM Window := do
  let (first, count) := placed.range bytes.length
  let (storage, memory) := (← get).memory.addStorage (Storage.ofBytes bytes)
  modify fun session =>
    { session with workspace := { session.workspace with memory := memory } }
  return ⟨storage, first, count, true, false⟩

/-- The window onto the bytes that a block covers. The empty block covers no bytes, which cannot be
written to. -/
def windowOver (block : PlacedBlock) : SessionM Window := do
  match block.storage with
  | .value Value.none _ => windowOnto [] Block.empty
  | .value (.bytes bytes) _ => windowOnto bytes (← placeOfBlock block)
  | .window id =>
      let _ ← windowBytes id
      let outer := (← get).window id
      let (first, count) := (← placeOfBlock block).range outer.count
      return { outer with first := outer.first + first, count := count }
  | .storage id =>
      let (first, count) := (← placeOfBlock block).range ((← get).memory.storage id).size
      return ⟨id, first, count, false, false⟩
  | _ => fail .wrongType

def view (block : PlacedBlock) : SessionM Bytes := do
  let window ← windowOver block
  return ((← get).memory.storage window.storage).read window.first window.count

/-- Replaces the bytes of a storage that a block covers by as many zeros as its size says. -/
def zeroStorage (block : Block) (storage : StorageId) (fill : Nat) : SessionM Unit := do
  let (_, count) := block.range ((← get).memory.storage storage).size
  if count ≠ fill then checkResizable storage
  onMemory (Memory.zeroBlock { block with storage := some storage })

def zeroList (block : Block) (id : ListId) (fill : Nat) : SessionM Unit := do
  let objects := (← get).list id
  let (first, count) := block.range objects.length
  setList id (objects.take first ++ List.replicate fill (Object.nat 0) ++
    objects.drop (first + count))

/-- Zeroes what a block covers of a window, which must be as many bytes as its size says. -/
def zeroWindow (block : Block) (id : WindowId) (fill : Nat) : SessionM Unit := do
  let window := (← get).window id
  if window.isReleased then throw .released
  if window.isReadOnly then fail .readOnly
  let (first, count) := block.range window.count
  if count ≠ fill then throw .otherSize
  onMemory (Memory.zeroBlock ⟨some window.storage, (window.first + first : Nat), fill⟩)

/-- Zeroes what a block covers. The zeros are made before anything else is looked at. -/
def zero (block : PlacedBlock) : SessionM Unit := do
  if block.storage.isNone then return ()
  if !(← truthOf block.size) then return ()
  match block.size.int? with
  | some size =>
      let fill ← ofExcept ((← get).memory.zeroCount size)
      let placed : Block := ⟨none, ← intOf block.start, size⟩
      match block.storage with
      | .storage id => zeroStorage placed id fill
      | .list id => zeroList placed id fill
      | .window id => zeroWindow placed id fill
      | _ => fail .wrongType
  | none =>
      let _ ← bytesOf block.size
      fail .wrongType

/-- Writes one byte through a window. The index is checked before the value is looked at. -/
def setThrough (window : Window) (index value : Object) : SessionM Unit := do
  if window.isReleased then throw .released
  if window.isReadOnly then fail .readOnly
  let shown : Block := ⟨some window.storage, window.first, window.count⟩
  let index ← intOf index
  if ((← get).memory.bytePlace? shown index).isNone then fail .byteIndexOutOfRange
  onMemory (Memory.poke shown index (← intOf value))

def poke (block : PlacedBlock) (index value : Object) : SessionM Unit := do
  setThrough (← windowOver block) index value

/-- A released window shows nothing any more. -/
def releaseWindow (id : WindowId) : SessionM Unit :=
  modify fun session =>
    { session with
      windows := session.windows.modify id.index fun window => { window with isReleased := true } }

end LexKit.SessionM
