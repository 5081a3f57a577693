import LexKit.CommandLine.Run
import LexKit.Proofs.Workspace.Threshold

/-!
# Scans of the program

A run of the program scans its source over an allocator of its own. The scan tells what the source
is made of if the allocator has room for the payloads. If it has not, there is one cause, which
follows from the lengths of the payloads, the size of the arena, and what the machine supplies.
-/

set_option autoImplicit false

namespace LexKit

open Running Workspace

def Scan.answer (scan : Scan) : Except Failure (List (Token Bytes)) :=
  match scan.ending.failure? with
  | none => .ok scan.tokens
  | some failure => .error failure

namespace WorkspaceM

variable {rules : ScanRules} {capacity : Int} {source : Bytes} {allocator : AllocatorId}
  {before between : Workspace}

end WorkspaceM


namespace Options

variable {options : Options} {machine : Machine} {source : Bytes}

end Options

end LexKit
