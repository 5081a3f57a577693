import LexKit.Proofs.Workspace.Interference

/-!
# Runs with resets

Runs in which arenas are reset while buffers still hold blocks of theirs, and in which others take
blocks from the same allocators and write to them. Buffers may show each other's bytes then. Every
step leaves the workspace standing, and every step but a reset leaves it settled.
-/

set_option autoImplicit false

namespace LexKit

inductive StoreCommand where
  | follow (command : WorkspaceCommand)
  | reset (allocator : AllocatorId)
  | allocate (allocator : AllocatorId) (size : Int)
  | free (allocator : AllocatorId) (block : Block)
  | poke (block : Block) (index value : Int)

def StoreCommand.isReset : StoreCommand → Bool
  | .reset _ => true
  | _ => false

namespace WorkspaceM

def obey : StoreCommand → WorkspaceM Unit
  | .follow command => follow command
  | .reset allocator => onMemory (Memory.reset allocator)
  | .allocate allocator size => discard (onMemory (Memory.allocate allocator size))
  | .free allocator block => discard (onMemory (Memory.free allocator block))
  | .poke block index value => onMemory (Memory.poke block index value)

end WorkspaceM

namespace Workspace

open Running

variable {workspace : Workspace} {memory : Memory}

/-- The workspace behind commands one after the other, failed ones included. -/
def obeyAll (workspace : Workspace) (commands : List StoreCommand) : Workspace :=
  commands.foldl (fun workspace command => final (WorkspaceM.obey command workspace)) workspace

theorem final_discard {α : Type} (action : WorkspaceM α) (workspace : Workspace) :
    final ((discard action : WorkspaceM Unit) workspace) = final (action workspace) :=
  final_map _ action workspace

theorem upholds_onMemory {α : Type} {action : MemoryM α} (standing : workspace.Standing)
    (changes : ∃ touched, Memory.ChangesWithin touched workspace.memory
      (final (action workspace.memory))) :
    Upholds workspace (final (WorkspaceM.onMemory action workspace)) := by
  obtain ⟨memory, buffers⟩ := workspace
  obtain ⟨touched, changed⟩ := changes
  unfold WorkspaceM.onMemory
  dsimp only at changed ⊢
  cases ran : action memory with
  | ok result after =>
      rw [ran] at changed
      exact upholds_of_changes standing changed
  | error fault after =>
      rw [ran] at changed
      exact upholds_of_changes standing changed

theorem changes_allocate {id : AllocatorId} (fits : memory.Fits id) (size : Int) :
    ∃ touched, Memory.ChangesWithin touched memory (final (Memory.allocate id size memory)) := by
  cases ran : Memory.allocate id size memory with
  | ok extent after => exact ⟨_, (Memory.granted_of_allocate fits ran).changed⟩
  | error fault after =>
      cases Memory.allocate_error ran
      exact ⟨fun _ _ => False, Memory.changesWithin_record _ memory _⟩

theorem changes_poke (block : Block) (index value : Int) (memory : Memory) :
    ∃ touched, Memory.ChangesWithin touched memory
      (final (Memory.poke block index value memory)) := by
  have unchanged : ∃ touched, Memory.ChangesWithin touched memory memory :=
    ⟨fun _ _ => False, .refl _ memory⟩
  unfold Memory.poke
  split
  · exact unchanged
  · split
    · exact unchanged
    · split
      · exact unchanged
      · exact ⟨_, Memory.changesWithin_write memory _ _ _⟩

theorem upholds_obey {command : StoreCommand} (standing : workspace.Standing)
    (lasting : command.isReset = false) :
    Upholds workspace (final (WorkspaceM.obey command workspace)) := by
  cases command with
  | follow command => exact (secures_follow standing command).upholds
  | reset allocator => cases lasting
  | allocate allocator size =>
      rw [WorkspaceM.obey, final_discard]
      exact upholds_onMemory standing (changes_allocate (standing.fits allocator) size)
  | free allocator block =>
      rw [WorkspaceM.obey, final_discard]
      exact upholds_onMemory standing
        ⟨fun _ _ => False, Memory.changesWithin_record _ workspace.memory _⟩
  | poke block index value =>
      exact upholds_onMemory standing (changes_poke block index value workspace.memory)

theorem standing_obey (standing : workspace.Standing) (command : StoreCommand) :
    (final (WorkspaceM.obey command workspace)).Standing := by
  cases kind : command.isReset with
  | false => exact (upholds_obey standing kind).standing
  | true =>
      cases command with
      | reset allocator => exact standing_reset standing allocator
      | _ => cases kind

/-- A workspace stands through any run, also one that resets allocators whose blocks are in use. -/
theorem standing_obeyAll (standing : workspace.Standing) (commands : List StoreCommand) :
    (workspace.obeyAll commands).Standing := by
  induction commands generalizing workspace with
  | nil => exact standing
  | cons command rest ih => exact ih (standing_obey standing command)

/-- Without a reset in the run no block comes to lie in what its allocator has left to hand out. -/
theorem settled_obeyAll {commands : List StoreCommand} (standing : workspace.Standing)
    (settled : workspace.Settled) (lasting : ∀ command ∈ commands, command.isReset = false) :
    (workspace.obeyAll commands).Settled := by
  induction commands generalizing workspace with
  | nil => exact settled
  | cons command rest ih =>
      have once := upholds_obey standing (lasting command List.mem_cons_self)
      exact ih once.standing (once.settled settled) fun other member =>
        lasting other (List.mem_cons_of_mem command member)

end Workspace

end LexKit
