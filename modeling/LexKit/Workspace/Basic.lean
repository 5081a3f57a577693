import LexKit.Buffer.Operation
import LexKit.Tokenize

/-!
# Workspaces

A workspace holds buffers that share one memory. Buffers are named by number, so that several
holders of a name see each other's changes. Operations on one buffer run on it and the memory and
leave the other buffers in their places.
-/

set_option autoImplicit false

namespace LexKit

structure BufferId where
  index : Nat
deriving DecidableEq, Repr

structure Workspace where
  memory : Memory
  buffers : Array Buffer

/-- An action on a workspace. What it did before it failed stays done. -/
abbrev WorkspaceM := EStateM Fault Workspace

namespace Workspace

def empty (machine : Machine := .unlimited) : Workspace :=
  ⟨Memory.empty machine, #[]⟩

/-- Stands for a buffer that was never made. -/
def absentBuffer : Buffer :=
  ⟨⟨0⟩, .items, Layout.byteLayout, 0, 0, none, false⟩

def buffer (workspace : Workspace) (id : BufferId) : Buffer :=
  workspace.buffers.getD id.index absentBuffer

def content (workspace : Workspace) (id : BufferId) : Bytes :=
  (workspace.buffer id).content workspace.memory

end Workspace

namespace WorkspaceM

def onMemory {α : Type} (action : MemoryM α) : WorkspaceM α := fun ⟨memory, buffers⟩ =>
  match action memory with
  | .ok result after => .ok result ⟨after, buffers⟩
  | .error fault after => .error fault ⟨after, buffers⟩

def onBuffer {α : Type} (id : BufferId) (operation : BufferM α) : WorkspaceM α :=
  fun ⟨memory, buffers⟩ =>
    match operation ⟨buffers.getD id.index Workspace.absentBuffer, memory⟩ with
    | .ok result ⟨buffer, after⟩ => .ok result ⟨after, buffers.setIfInBounds id.index buffer⟩
    | .error fault ⟨buffer, after⟩ => .error fault ⟨after, buffers.setIfInBounds id.index buffer⟩

def addBuffer (action : MemoryM Buffer) : WorkspaceM BufferId := do
  let buffer ← onMemory action
  modifyGet fun ⟨memory, buffers⟩ => (⟨buffers.size⟩, ⟨memory, buffers.push buffer⟩)

def newBuffer (allocator : AllocatorId) (pattern : String) (inlineCapacity : Int) :
    WorkspaceM BufferId := do
  let some layout := Layout.ofPattern? pattern | throw .invalidFormat
  addBuffer (Buffer.create allocator .items layout inlineCapacity)

def newText (allocator : AllocatorId) (inlineCapacity : Int) : WorkspaceM BufferId :=
  addBuffer (Buffer.createText allocator inlineCapacity)

def textOfBytes (allocator : AllocatorId) (bytes : Bytes) : WorkspaceM BufferId :=
  addBuffer (Buffer.ofBytes allocator bytes)

def copy (id : BufferId) : WorkspaceM BufferId := do
  let clone ← onBuffer id BufferM.copy
  addBuffer (return clone)

/-- A new buffer that takes over the block and the elements of another. -/
def take (id : BufferId) : WorkspaceM BufferId := do
  let moved ← onBuffer id BufferM.take
  addBuffer (return moved)

/-- Appends to a buffer the elements of a buffer, which may be the same. -/
def extendBy (id source : BufferId) : WorkspaceM Unit := do
  let workspace ← get
  onBuffer id (BufferM.extendBy (workspace.buffer source))

/-- Appends to a text the content of a text, which may be the same. -/
def appendText (id source : BufferId) : WorkspaceM Unit := do
  let workspace ← get
  onBuffer id (BufferM.appendBytes (workspace.content source))

def appendParts (id : BufferId) (separator : Bytes) : List Bytes → WorkspaceM Unit
  | [] => return ()
  | [part] => onBuffer id (BufferM.appendBytes part)
  | part :: rest => do
      onBuffer id (BufferM.appendBytes part)
      onBuffer id (BufferM.appendBytes separator)
      appendParts id separator rest

def joinedLength (separator : Bytes) (parts : List Bytes) : Nat :=
  parts.flatten.length + separator.length * (parts.length - 1)

/-- Joins parts into a new text, for which room is made at once. -/
def concat (allocator : AllocatorId) (separator : Bytes) (parts : List Bytes) :
    WorkspaceM BufferId := do
  let id ← newText allocator 0
  onBuffer id (BufferM.reserve (joinedLength separator parts))
  appendParts id separator parts
  return id

def textsOf (allocator : AllocatorId) (pieces : List Bytes) : WorkspaceM (List BufferId) :=
  pieces.mapM (textOfBytes allocator)

end WorkspaceM

/-- A scanner for one source. It keeps nothing from one tokenization to the next. -/
structure Lexer where
  source : Bytes
  allocator : AllocatorId
  rules : ScanRules

namespace Workspace

/-- Payloads are texts from one allocator. -/
def payloadStore (allocator : AllocatorId) : PayloadStore Workspace BufferId where
  hold bytes workspace :=
    match WorkspaceM.textOfBytes allocator bytes workspace with
    | .ok id after => (.ok id, after)
    | .error fault after => (.error fault, after)
  drop id workspace :=
    match WorkspaceM.onBuffer id BufferM.release workspace with
    | .ok _ after => after
    | .error _ after => after

end Workspace

namespace WorkspaceM

/-- Tokenizes the source of a lexer; payloads become texts of the workspace. -/
def tokenize (lexer : Lexer) : WorkspaceM (Outcome BufferId) := fun workspace =>
  match (Workspace.payloadStore lexer.allocator).tokenize lexer.rules lexer.source workspace with
  | (.ok outcome, after) => .ok outcome after
  | (.error fault, after) => .error fault after

def releasePayload (payload : Option BufferId) : WorkspaceM Unit :=
  match payload with
  | some id => onBuffer id BufferM.release
  | none => return ()

def releaseTokens (tokens : List (Token BufferId)) : WorkspaceM Unit :=
  tokens.forM fun token => releasePayload token.payload?

end WorkspaceM

namespace Workspace

def tokenContents (workspace : Workspace) (tokens : List (Token BufferId)) : List (Token Bytes) :=
  tokens.map (Token.map workspace.content)

end Workspace

end LexKit
