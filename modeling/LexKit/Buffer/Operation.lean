import LexKit.Buffer.Basic

/-!
# Operations on a buffer

An operation acts on one buffer and the memory it lives in. What an operation did before it failed
stays done: a rejected value may leave the buffer with more room than before, and an extension that
runs out of memory keeps the elements pushed so far.
-/

set_option autoImplicit false

namespace LexKit

structure BufferState where
  buffer : Buffer
  memory : Memory

abbrev BufferM := EStateM Fault BufferState

namespace BufferM

/-- Runs an action that looks at the buffer and acts on memory only. -/
def observe {α : Type} (action : Buffer → MemoryM α) : BufferM α := fun ⟨buffer, memory⟩ =>
  match action buffer memory with
  | .ok result after => .ok result ⟨buffer, after⟩
  | .error fault after => .error fault ⟨buffer, after⟩

/-- Replaces the buffer by the result of an action; if the action fails the buffer stays. -/
def replace (action : Buffer → MemoryM Buffer) : BufferM Unit := fun ⟨buffer, memory⟩ =>
  match action buffer memory with
  | .ok changed after => .ok () ⟨changed, after⟩
  | .error fault after => .error fault ⟨buffer, after⟩

/-- Runs an action that gives a result and the buffer as it is afterwards. -/
def exchange {α : Type} (action : Buffer → MemoryM (α × Buffer)) : BufferM α :=
  fun ⟨buffer, memory⟩ =>
    match action buffer memory with
    | .ok (result, changed) after => .ok result ⟨changed, after⟩
    | .error fault after => .error fault ⟨buffer, after⟩

def countUp : BufferM Unit :=
  modify fun state => { state with buffer := { state.buffer with count := state.buffer.count + 1 } }

/-- Clears the place behind the last element, for which room is made first. -/
def openNext : BufferM ItemPlace := do
  replace Buffer.makeRoom
  observe fun buffer => buffer.openPlace buffer.count

def openAt (index : Quantity) : BufferM ItemPlace :=
  observe (·.openAt index)

def fill (place : ItemPlace) (value : Value) : BufferM Unit :=
  observe (·.fill place value)

def push (value : Value) : BufferM Unit := do
  fill (← openNext) value
  countUp

def extend : List Value → BufferM Unit
  | [] => return ()
  | value :: rest => do
      push value
      extend rest

/-- Appends elements of a block from an index on, `count` of them. Each is read at its turn, from
the block that `source` had at the beginning. -/
def extendFrom (source : Buffer) (extent : Extent) (index : Nat) : Nat → BufferM Unit
  | 0 => return ()
  | count + 1 => do
      push (← observe fun _ => source.element extent index)
      extendFrom source extent (index + 1) count

/-- Appends the elements of a buffer, which may be this one. Its block and its count are those at
the beginning, however the buffer grows meanwhile. -/
def extendBy (source : Buffer) : BufferM Unit :=
  match source.block with
  | none => return ()
  | some extent => extendFrom source extent 0 source.count

def get (index : Quantity) : BufferM Value :=
  observe (·.get index)

def set (index : Quantity) (value : Value) : BufferM Unit :=
  observe (·.set index value)

def pop : BufferM Value :=
  exchange Buffer.pop

def clear : BufferM Unit :=
  replace fun buffer => return buffer.clear

def reserve (capacity : Int) : BufferM Unit :=
  replace (·.reserve capacity)

def resize (count : Int) : BufferM Unit :=
  replace (·.resize count)

def copy : BufferM Buffer :=
  observe Buffer.copy

def take : BufferM Buffer :=
  exchange Buffer.take

def release : BufferM Unit :=
  replace Buffer.release

def toList : BufferM (List Value) :=
  observe Buffer.toList

def appendBytes (bytes : Bytes) : BufferM Unit :=
  replace (·.appendBytes bytes)

end BufferM

end LexKit
