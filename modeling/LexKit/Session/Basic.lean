import LexKit.Session.Object

/-!
# Sessions

A session works interactively on a workspace. Besides the workspace it holds what its user changes
step by step, by number: blocks, cursors, lists and windows. It logs the calls to the allocators
that have a label.

An allocator may be given as any object. What is none gets a stand-in that refuses every request, so
that buffers can be made over it as long as they need no memory.

The workspace counts in integers. Where a user made an arena or a buffer count otherwise, the
session knows the quantity. Such an arena is full as far as the workspace knows, and such a buffer
has there as many elements as there are indices below the quantity.
-/

set_option autoImplicit false

namespace LexKit

/-- A call to an allocator with the size as it was given. -/
structure LoggedCall where
  allocator : AllocatorId
  isRelease : Bool
  size : Object
  success : Bool

namespace LoggedCall

def ofCall : AllocatorCall → LoggedCall
  | .allocate id size result => ⟨id, false, Object.int size, result.isSome⟩
  | .free id block released => ⟨id, true, Object.int block.size, released⟩

end LoggedCall

structure Session where
  workspace : Workspace
  blocks : Array PlacedBlock
  cursors : Array Reader
  lists : Array (List Object)
  windows : Array Window
  /-- The labels of the allocators whose calls are logged. -/
  labels : List (AllocatorId × String)
  /-- The objects that are no allocators, by their stand-ins. -/
  strangers : List (AllocatorId × Object)
  /-- The buffers whose pattern was given as bytes. -/
  bytePatterns : List BufferId
  /-- The regions whose capacity was given as a truth value. -/
  flagRegions : List (StorageId × Bool)
  /-- What arenas count as used, where that is a real number. -/
  realUses : List (AllocatorId × UInt64)
  /-- The counts of buffers that were not given as integers. -/
  counts : List (BufferId × Quantity)
  /-- The calls since the log was last taken, the last one first. -/
  calls : List LoggedCall
  /-- The marks below this one are in use. -/
  nextMark : Mark
  /-- The objects that the user has named. -/
  held : List Object

/-- An action on a session. What it did before it failed stays done. -/
abbrev SessionM := EStateM SessionFault Session

namespace Session

/-- The first mark is that of the default table. -/
def empty (machine : Machine := .unlimited) : Session :=
  ⟨Workspace.empty machine, #[], #[], #[], #[], [], [], [], [], [], [], [], 1, []⟩

def memory (session : Session) : Memory :=
  session.workspace.memory

def block (session : Session) (id : BlockId) : PlacedBlock :=
  session.blocks.getD id.index PlacedBlock.empty

def reader (session : Session) (id : CursorId) : Reader :=
  session.cursors.getD id.index (Reader.ofBytes [] Mark.shared)

def list (session : Session) (id : ListId) : List Object :=
  session.lists.getD id.index []

def window (session : Session) (id : WindowId) : Window :=
  session.windows.getD id.index ⟨⟨0⟩, 0, 0, true, true⟩

def buffer (session : Session) (id : BufferId) : Buffer :=
  session.workspace.buffer id

def isText (session : Session) (id : BufferId) : Bool :=
  (session.buffer id).role == .text

def storageBytes (session : Session) (id : StorageId) : Bytes :=
  (session.memory.storage id).toList

def capacityOf (session : Session) (arena : Arena) : Quantity :=
  match arena.region with
  | some region =>
      match session.flagRegions.lookup region.storage with
      | some flag => .flag flag
      | none => .int region.size
  | none => .int 0

def usedOf (session : Session) (id : AllocatorId) (arena : Arena) : Quantity :=
  match session.realUses.lookup id with
  | some bits => .real bits
  | none => .int arena.used

def remainingOf (session : Session) (id : AllocatorId) (arena : Arena) : Quantity :=
  match session.usedOf id arena with
  | .real bits => .real (Real.difference (Float.ofNat arena.capacity).toBits bits)
  | _ => .int arena.remaining

def countOf (session : Session) (id : BufferId) : Quantity :=
  (session.counts.lookup id).getD (.int (session.buffer id).count)

def hasRealCount (session : Session) (id : BufferId) : Bool :=
  (session.countOf id).whole?.isNone

def patternOf (session : Session) (id : BufferId) : Object :=
  let pattern := (session.buffer id).layout.pattern
  if session.bytePatterns.contains id then .bytes (Utf8.encode pattern) else .text pattern

def allocatorOf (session : Session) (id : BufferId) : Object :=
  let allocator := (session.buffer id).allocator
  (session.strangers.lookup allocator).getD (.allocator allocator)

def typeName (session : Session) : Object → String
  | .value value _ => value.typeName
  | .kind _ => "TokenType"
  | .allocator id =>
      match session.memory.allocator id with
      | .heap => "HeapAllocator"
      | .arena _ => "ArenaAllocator"
  | .storage _ => "bytearray"
  | .block _ => "MemoryBlock"
  | .buffer id => if session.isText id then "Text" else "GrowableBuffer"
  | .cursor _ => "Cursor"
  | .rules .. => "LexerConfig"
  | .lexer .. => "Lexer"
  | .token variant .. => variant.name
  | .success _ => "LexSuccess"
  | .failure .. => "LexFailure"
  | .error .. => "LexError"
  | .position .. => "Position"
  | .entry _ => "SymbolEntry"
  | .table .. => "SymbolTable"
  | .list _ => "list"
  | .tuple _ => "tuple"
  | .window _ => "memoryview"

/-- Containers count as true when they hold something; all other references count as true. -/
def truth (session : Session) : Object → Bool
  | .value value _ => value.truth
  | .storage id => (session.memory.storage id).size != 0
  | .buffer id => (session.buffer id).count != 0
  | .table _ table => !table.entries.isEmpty
  | .list id => !(session.list id).isEmpty
  | .tuple objects => !objects.isEmpty
  | .window id => (session.window id).count != 0
  | _ => true

def toValue (session : Session) (object : Object) : Value :=
  match object with
  | .value value _ => value
  | .storage id => .mutableBytes (session.storageBytes id)
  | other => .object (session.typeName other) (session.truth other)

/-- Takes over a workspace after an action; the calls made meanwhile go to the session's log. -/
def adopt (session : Session) (after : Workspace) : Session :=
  { session with
    workspace := { after with memory := { after.memory with calls := [] } }
    calls := after.memory.calls.map LoggedCall.ofCall ++ session.calls }

/-- Notes what an arena counts as used, which is a real number. No integer request is granted by it
any more. -/
def setRealUse (session : Session) (id : AllocatorId) (bits : UInt64) : Session :=
  let noted := { session with realUses := (id, bits) :: session.realUses }
  match session.memory.allocator id with
  | .arena arena =>
      let memory := session.memory.setAllocator id (.arena ⟨arena.region, arena.capacity⟩)
      { noted with workspace := { session.workspace with memory := memory } }
  | .heap => noted

/-- An arena counts a request as used that it has room for. If not, or if the sum is too large for a
real number, this is the fault. -/
def useUp (session : Session) (id : AllocatorId) (arena : Arena) (size : Quantity) :
    Except SessionFault Quantity :=
  match (session.usedOf id arena).add? size with
  | none => .error (.memory .floatTooLarge)
  | some used =>
      if Quantity.isLess (.int arena.capacity) used then
        .error (.exhausted size (session.remainingOf id arena) (session.capacityOf arena))
      else .ok used

/-- A fault as the user sees it, and the session with what the user did. The last call tells which
allocator refused. A stand-in refuses because it is no allocator, and an arena shows its capacity as
it was given. An arena that counts in real numbers uses up what was requested, but it cannot supply
it. -/
def explain (session : Session) (fault : Fault) : SessionFault × Session :=
  match fault, session.calls.head? with
  | .arenaClosed, some call =>
      if (session.strangers.lookup call.allocator).isSome then (.memory .unsupported, session)
      else (.memory fault, session)
  | .arenaExhausted requested _ _, some call =>
      match session.memory.allocator call.allocator with
      | .heap => (.memory fault, session)
      | .arena arena =>
          match session.useUp call.allocator arena (.int requested) with
          | .error fault => (fault, session)
          | .ok (.real bits) => (.memory .wrongType, session.setRealUse call.allocator bits)
          | .ok _ => (.memory fault, session)
  | fault, _ => (.memory fault, session)

/-- The calls to labelled allocators, each with its label, in the order in which they were made. -/
def labelledCalls (session : Session) : List (String × LoggedCall) :=
  session.calls.reverse.filterMap fun call =>
    (session.labels.lookup call.allocator).map fun label => (label, call)

end Session

namespace SessionM

/-- How deep lists may lie within each other where they are gone through. -/
def depthLimit : Nat :=
  1000

/-- Runs an action on the workspace, which the rest of the session does without meanwhile. -/
def onWorkspace {α : Type} (action : WorkspaceM α) : SessionM α := fun session =>
  let workspace := session.workspace
  let rest := { session with workspace := Workspace.empty }
  match action workspace with
  | .ok result after => .ok result (rest.adopt after)
  | .error fault after =>
      let (explained, changed) := (rest.adopt after).explain fault
      .error explained changed

def onMemory {α : Type} (action : MemoryM α) : SessionM α :=
  onWorkspace (WorkspaceM.onMemory action)

/-- Runs an operation on a buffer. A fault of an index shows the count in the form in which it was
given. -/
def onBuffer {α : Type} (id : BufferId) (operation : BufferM α) : SessionM α := fun session =>
  match onWorkspace (WorkspaceM.onBuffer id operation) session with
  | .ok result after => .ok result after
  | .error (.memory (.indexOutOfRange index _)) after =>
      .error (.outOfRange index (after.countOf id)) after
  | .error fault after => .error fault after

def fail {α : Type} (fault : Fault) : SessionM α :=
  throw (.memory fault)

def ofExcept {α : Type} (result : Except Fault α) : SessionM α :=
  match result with
  | .ok value => return value
  | .error fault => fail fault

def done (action : SessionM Unit) : SessionM Object := do
  action
  return Object.none

def newMark : SessionM Mark :=
  modifyGet fun session => (session.nextMark, { session with nextMark := session.nextMark + 1 })

def addBlock (block : PlacedBlock) : SessionM Object :=
  modifyGet fun session =>
    (.block ⟨session.blocks.size⟩, { session with blocks := session.blocks.push block })

def setBlock (id : BlockId) (block : PlacedBlock) : SessionM Unit :=
  modify fun session => { session with blocks := session.blocks.setIfInBounds id.index block }

def addCursor (reader : Reader) : SessionM Object :=
  modifyGet fun session =>
    (.cursor ⟨session.cursors.size⟩, { session with cursors := session.cursors.push reader })

def setCursor (id : CursorId) (reader : Reader) : SessionM Unit :=
  modify fun session => { session with cursors := session.cursors.setIfInBounds id.index reader }

def addList (objects : List Object) : SessionM Object :=
  modifyGet fun session =>
    (.list ⟨session.lists.size⟩, { session with lists := session.lists.push objects })

def setList (id : ListId) (objects : List Object) : SessionM Unit :=
  modify fun session => { session with lists := session.lists.setIfInBounds id.index objects }

def addWindow (window : Window) : SessionM Object :=
  modifyGet fun session =>
    (.window ⟨session.windows.size⟩, { session with windows := session.windows.push window })

def addStorage (storage : Storage) : SessionM Object :=
  modifyGet fun session =>
    let (id, memory) := session.memory.addStorage storage
    (.storage id, { session with workspace := { session.workspace with memory := memory } })

def addTable (table : SymbolTable) : SessionM Object := do
  return .table (← newMark) table

def record (allocator : AllocatorId) (isRelease : Bool) (size : Object) (success : Bool) :
    SessionM Unit :=
  modify fun session =>
    { session with calls := ⟨allocator, isRelease, size, success⟩ :: session.calls }

/-- Labels an allocator, so that its calls are logged. Other objects take no label. -/
def label (object : Object) (name : String) : SessionM Unit :=
  match object with
  | .allocator id => modify fun session => { session with labels := (id, name) :: session.labels }
  | _ => return ()

/-- Takes the log of labelled calls; it begins anew. -/
def takeCalls : SessionM (List (String × LoggedCall)) :=
  modifyGet fun session => (session.labelledCalls, { session with calls := [] })

/-- A value as an object of its own, unless there is only one such object. Bytes that may still
change become a storage. -/
def ofValue (value : Value) : SessionM Object := do
  match value with
  | .mutableBytes bytes => addStorage (Storage.ofBytes bytes)
  | value => return .value value (← if value.isShared then pure Mark.shared else newMark)

def identified (object : Object) : SessionM Object :=
  match object with
  | .value value Mark.shared => ofValue value
  | object => return object

def ofQuantity : Quantity → SessionM Object
  | .int value => return Object.int value
  | .flag value => return Object.bool value
  | .real bits => ofValue (.real bits)

/-- The allocator that an object is, or the stand-in for an object that is none. -/
def allocatorFor (object : Object) : SessionM AllocatorId := do
  match object with
  | .allocator id => return id
  | other =>
      let id ← onMemory Memory.newClosedArena
      modify fun session => { session with strangers := (id, other) :: session.strangers }
      return id

def quantityOf (object : Object) : SessionM Quantity :=
  match object.quantity? with
  | some quantity => return quantity
  | none => fail .wrongType

def intOf (object : Object) : SessionM Int :=
  match object.int? with
  | some value => return value
  | none => fail .wrongType

/-- The sum of two quantities, which may be too large for a real number. -/
def sumOf (left right : Quantity) : SessionM Quantity :=
  match left.add? right with
  | some sum => return sum
  | none => fail .floatTooLarge

end SessionM

end LexKit
