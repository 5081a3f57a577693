import LexKit.Workspace.Basic

/-!
# The contents of tokens

A scan of a whole source whose payloads live only as long as their bytes are needed.
-/

set_option autoImplicit false

namespace LexKit.WorkspaceM

/-- A new arena, or a new heap if the capacity is zero. -/
def newAllocator (capacity : Int) : WorkspaceM AllocatorId :=
  onMemory (if capacity = 0 then Memory.newHeap else Memory.newArena capacity)

/-- Scans a source over a new allocator. The payloads are released once their bytes were read. -/
def contentsOf (rules : ScanRules) (capacity : Int) (source : Bytes) :
    WorkspaceM (Except Failure (List (Token Bytes))) := do
  let allocator ← newAllocator capacity
  match ← tokenize ⟨source, allocator, rules⟩ with
  | .failure reported => return .error reported
  | .success tokens =>
      let contents := (← get).tokenContents tokens
      releaseTokens tokens
      return .ok contents

end LexKit.WorkspaceM
