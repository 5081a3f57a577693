import LexKit.Workspace.Basic
import LexKit.Proofs.Buffer.Ownership

/-!
# Commands to buffers

Runs of commands to any number of buffers that share allocators, once as the workspace carries them
out, and once as they are meant: by slots alone. A run by slots is defined where each buffer is one
that was made, each layout has one item and a positive size, and each value is one that the layout
takes; it cannot run out of memory.
-/

set_option autoImplicit false

namespace LexKit

inductive Piece where
  | number (value : Int)
  | bytes (value : Bytes)
  | string (value : String)
  | text (source : BufferId)
deriving DecidableEq, Repr

inductive BufferCommand where
  | newHeap
  | newArena (capacity : Int)
  | newBuffer (allocator : AllocatorId) (pattern : String) (inlineCapacity : Int)
  | newText (allocator : AllocatorId) (inlineCapacity : Int)
  | push (id : BufferId) (value : Value)
  | extend (id : BufferId) (values : List Value)
  | extendBy (id source : BufferId)
  | append (id : BufferId) (piece : Piece)
  | get (id : BufferId) (index : Int)
  | set (id : BufferId) (index : Int) (value : Value)
  | pop (id : BufferId)
  | clear (id : BufferId)
  | reserve (id : BufferId) (capacity : Int)
  | resize (id : BufferId) (count : Int)
  | copy (id : BufferId)
  | take (id : BufferId)
  | release (id : BufferId)
  | length (id : BufferId)
  | toList (id : BufferId)
  | toBytes (id : BufferId)
deriving DecidableEq, Repr

inductive Answer where
  | nothing
  | value (value : Value)
  | values (values : List Value)
  | bytes (bytes : Bytes)
  | count (count : Nat)
  | buffer (id : BufferId)
  | fault (fault : Fault)
deriving DecidableEq, Repr

def Answer.isShortage : Answer → Bool
  | .fault cause => cause.IsShortage
  | _ => false

/-- The bytes of a value stay inside of the element. They do not where counted bytes have no room
for their count at the end of the element. -/
def Layout.isContained (layout : Layout) : Bool :=
  match layout.singleItem? with
  | some (offset, .countedBytes 0) => decide (offset < layout.size)
  | _ => true

theorem Layout.contains_of_isContained {pattern : String} {layout : Layout} {offset : Nat}
    {type : FieldType} (read : Layout.ofPattern? pattern = some layout)
    (single : layout.singleItem? = some (offset, type)) (sized : layout.size ≠ 0)
    (contained : layout.isContained = true) : layout.Contains offset type := by
  refine Layout.contains_of_ofPattern? read single (Nat.pos_of_ne_zero sized) ?_
  rintro rfl
  rw [Layout.isContained, single] at contained
  exact of_decide_eq_true contained

/-- The command makes no buffer whose values reach out of their elements. -/
def BufferCommand.isContained : BufferCommand → Bool
  | .newBuffer _ pattern _ => (Layout.ofPattern? pattern).all Layout.isContained
  | _ => true

/-! ## On a workspace -/

namespace WorkspaceM

def noted {α : Type} (action : WorkspaceM α) : WorkspaceM Answer :=
  (fun _ => .nothing) <$> action

/-- Appends a number as one byte, and anything else as the bytes that it is. -/
def append (id : BufferId) : Piece → WorkspaceM Unit
  | .number value => onBuffer id (BufferM.push (.int value))
  | .bytes bytes => onBuffer id (BufferM.appendBytes bytes)
  | .string text => onBuffer id (BufferM.appendBytes (Utf8.encode text))
  | .text source => appendText id source

def carryOut : BufferCommand → WorkspaceM Answer
  | .newHeap => noted (onMemory Memory.newHeap)
  | .newArena capacity => noted (onMemory (Memory.newArena capacity))
  | .newBuffer allocator pattern inlineCapacity =>
      .buffer <$> newBuffer allocator pattern inlineCapacity
  | .newText allocator inlineCapacity => .buffer <$> newText allocator inlineCapacity
  | .push id value => noted (onBuffer id (BufferM.push value))
  | .extend id values => noted (onBuffer id (BufferM.extend values))
  | .extendBy id source => noted (extendBy id source)
  | .append id piece => noted (append id piece)
  | .get id index => .value <$> onBuffer id (BufferM.get (.int index))
  | .set id index value => noted (onBuffer id (BufferM.set (.int index) value))
  | .pop id => .value <$> onBuffer id BufferM.pop
  | .clear id => noted (onBuffer id BufferM.clear)
  | .reserve id capacity => noted (onBuffer id (BufferM.reserve capacity))
  | .resize id count => noted (onBuffer id (BufferM.resize count))
  | .copy id => .buffer <$> copy id
  | .take id => .buffer <$> take id
  | .release id => noted (onBuffer id BufferM.release)
  | .length id => return .count ((← get).buffer id).count
  | .toList id => .values <$> onBuffer id BufferM.toList
  | .toBytes id => return .bytes ((← get).content id)

end WorkspaceM

namespace Workspace

/-- The answer to a command, and the workspace after it. A fault is an answer, too. -/
def perform (workspace : Workspace) (command : BufferCommand) : Answer × Workspace :=
  match WorkspaceM.carryOut command workspace with
  | .ok answer after => (answer, after)
  | .error fault after => (.fault fault, after)

def performAll : List BufferCommand → Workspace → List Answer × Workspace
  | [], workspace => ([], workspace)
  | command :: rest, workspace =>
      let (answer, after) := workspace.perform command
      let (answers, last) := performAll rest after
      (answer :: answers, last)

end Workspace

/-! ## On slots -/

structure SlotMemory where
  buffers : Array Slots

namespace SlotMemory

def empty : SlotMemory :=
  ⟨#[]⟩

def slots? (memory : SlotMemory) (id : BufferId) : Option Slots :=
  memory.buffers[id.index]?

def replace (memory : SlotMemory) (id : BufferId) (slots : Slots) : SlotMemory :=
  ⟨memory.buffers.setIfInBounds id.index slots⟩

def add (memory : SlotMemory) (slots : Slots) : Answer × SlotMemory :=
  (.buffer ⟨memory.buffers.size⟩, ⟨memory.buffers.push slots⟩)

def told {α : Type} (answer : α → Answer) : Except Fault α → Answer
  | .ok found => answer found
  | .error fault => .fault fault

def text? (memory : SlotMemory) (id : BufferId) : Option Slots :=
  (memory.slots? id).filter (·.role == .text)

def valuesOf? (memory : SlotMemory) : Piece → Option (List Value)
  | .number value => some [.int value]
  | .bytes bytes => some (Slots.ofBytes bytes)
  | .string text => some (Slots.ofBytes (Utf8.encode text))
  | .text source => (memory.text? source).map fun shown => Slots.ofBytes shown.bytes

def step? (memory : SlotMemory) : BufferCommand → Option (Answer × SlotMemory)
  | .newHeap => some (.nothing, memory)
  | .newArena capacity =>
      some (if capacity < 0 then .fault (.negativeCapacity (.int capacity)) else .nothing, memory)
  | .newBuffer _ pattern _ => do
      let layout ← Layout.ofPattern? pattern
      let _ ← layout.singleItem?
      if layout.size = 0 then none else some (memory.add (.fresh .items layout))
  | .newText _ _ => some (memory.add (.fresh .text Layout.byteLayout))
  | .push id value => do
      let slots ← memory.slots? id
      return (.nothing, memory.replace id (← slots.push? value))
  | .extend id values => do
      let slots ← memory.slots? id
      return (.nothing, memory.replace id (← slots.extend? values))
  | .extendBy id source => do
      let slots ← memory.slots? id
      let shown ← memory.slots? source
      match shown.list with
      | .ok values => return (.nothing, memory.replace id (← slots.extend? values))
      | .error fault => return (.fault fault, memory)
  | .append id piece => do
      let slots ← memory.text? id
      return (.nothing, memory.replace id (← slots.extend? (← memory.valuesOf? piece)))
  | .get id index => do
      let slots ← memory.slots? id
      return (told .value (slots.get index), memory)
  | .set id index value => do
      let slots ← memory.slots? id
      match slots.place index with
      | .ok place =>
          return (.nothing, memory.replace id (slots.write place (← slots.layout.kept? value)))
      | .error fault => return (.fault fault, memory)
  | .pop id => do
      let slots ← memory.slots? id
      match slots.last with
      | .ok value =>
          return (.value value, memory.replace id { slots with count := slots.count - 1 })
      | .error fault => return (.fault fault, memory)
  | .clear id => do
      let slots ← memory.slots? id
      return (.nothing, memory.replace id { slots with count := 0 })
  | .reserve id _ => do
      let _ ← memory.slots? id
      return (.nothing, memory)
  | .resize id count => do
      let slots ← memory.slots? id
      if count < 0 then return (.fault (.negativeLength (.int count)), memory)
      else return (.nothing, memory.replace id { slots with count := count.toNat })
  | .copy id => do
      let slots ← memory.slots? id
      return memory.add slots.copied
  | .take id => do
      let slots ← memory.slots? id
      return (memory.replace id (.fresh slots.role slots.layout)).add slots
  | .release id => do
      let slots ← memory.slots? id
      return (.nothing, memory.replace id (.fresh slots.role slots.layout))
  | .length id => do
      let slots ← memory.slots? id
      return (.count slots.count, memory)
  | .toList id => do
      let slots ← memory.slots? id
      return (told .values slots.list, memory)
  | .toBytes id => do
      let slots ← memory.text? id
      return (.bytes slots.bytes, memory)

def run? : List BufferCommand → SlotMemory → Option (List Answer × SlotMemory)
  | [], memory => some ([], memory)
  | command :: rest, memory => do
      let (answer, after) ← memory.step? command
      let (answers, last) ← run? rest after
      return (answer :: answers, last)

end SlotMemory

end LexKit
