import LexKit.Proofs.Buffer.Elements
import LexKit.Proofs.Workspace.Steps

/-!
# Standing

What is always true of a workspace, also after an arena was reset and hands out again what buffers
still hold: regions and blocks lie in storages, and each buffer has room for all that it counts. As
long as no arena is reset, no block is among the bytes that its allocator has left.
-/

set_option autoImplicit false

namespace LexKit.Workspace

open Running

variable {memory after : Memory} {buffers : Array Buffer} {first second third : Workspace}
  {id : BufferId}

structure Standing (workspace : Workspace) : Prop where
  fits : ∀ id, workspace.memory.Fits id
  housed : ∀ id, (workspace.buffer id).Housed
  held : ∀ id, (workspace.buffer id).Held workspace.memory

def Settled (workspace : Workspace) : Prop :=
  ∀ id, (workspace.buffer id).Settled workspace.memory (workspace.buffer id).allocator

theorem buffer_empty (machine : Machine) (id : BufferId) :
    (Workspace.empty machine).buffer id = absentBuffer :=
  buffer_eq_absent (Nat.zero_le _)

theorem standing_empty (machine : Machine) : (Workspace.empty machine).Standing := by
  constructor
  · intro id region used known
    cases known
  · intro id
    rw [buffer_empty]
    exact .of_empty Layout.isRead_byteLayout rfl
  · intro id extent known
    rw [buffer_empty] at known
    cases known

theorem Standing.list_eq {workspace : Workspace} {item : Nat × FieldType}
    (standing : workspace.Standing)
    (single : (workspace.buffer id).layout.singleItem? = some item)
    (readable : (workspace.buffer id).layout.isReadable = true) :
    workspace.perform (.toList id) =
      (.values ((workspace.buffer id).elements workspace.memory), workspace) := by
  have listed := Buffer.toList_eq_elements (standing.housed id) (standing.held id) readable single
  have ran : BufferM.toList ⟨workspace.buffer id, workspace.memory⟩ =
      answer (.ok ((workspace.buffer id).elements workspace.memory))
        ⟨workspace.buffer id, workspace.memory⟩ := by
    simp only [BufferM.toList, BufferM.observe, listed, answer]
  rw [perform_answer rfl ran]
  rfl

theorem settled_empty (machine : Machine) : (Workspace.empty machine).Settled := by
  intro id extent known
  rw [buffer_empty] at known
  cases known

/-- The workspace stands afterwards, and is settled if it was so. -/
structure Upholds (before after : Workspace) : Prop where
  standing : after.Standing
  settled : before.Settled → after.Settled

namespace Upholds

theorem refl (standing : first.Standing) : Upholds first first :=
  ⟨standing, fun settled => settled⟩

theorem trans (left : Upholds first second) (right : Upholds second third) :
    Upholds first third :=
  ⟨right.standing, fun settled => right.settled (left.settled settled)⟩

end Upholds

/-! ## Buffers that come from others -/

/-- The buffer came about from one that stood, with whose block it began. -/
def Derives (before : Workspace) (later : Buffer) (after : Memory) : Prop :=
  ∃ origin : Buffer, origin.Held before.memory ∧
    (before.Settled → origin.Settled before.memory origin.allocator) ∧
    Buffer.Confined False origin before.memory later after

theorem derives_of_confined {snug : Prop} {later : Buffer} (standing : first.Standing)
    (confined : Buffer.Confined snug (first.buffer id) first.memory later after) :
    Derives first later after :=
  ⟨first.buffer id, standing.held id, fun settled => settled id, confined.weaken False.elim⟩

theorem derives_of_changes {touched : StorageId → Nat → Prop} (standing : first.Standing)
    (changed : Memory.ChangesWithin touched first.memory after) (id : BufferId) :
    Derives first (first.buffer id) after := by
  have anywhere : Memory.ChangesWithin ((first.buffer id).Reach False) first.memory after :=
    changed.mono fun _ _ _ _ => False.elim
  exact derives_of_confined standing (.of_changes (standing.housed id) anywhere)

theorem derives_of_blank {snug : Prop} {blank later : Buffer} (block : blank.block = none)
    (confined : Buffer.Confined snug blank first.memory later after) :
    Derives first later after := by
  refine ⟨blank, ?_, fun _ => ?_, confined.weaken False.elim⟩
  · intro extent known
    rw [block] at known
    cases known
  · intro extent known
    rw [block] at known
    cases known

/-- Whatever is done to bytes, the workspace stands if each buffer comes from one that stood. -/
theorem upholds_of_derives {touched : StorageId → Nat → Prop} (standing : first.Standing)
    (changed : Memory.ChangesWithin touched first.memory second.memory)
    (each : ∀ id, Derives first (second.buffer id) second.memory) : Upholds first second := by
  constructor
  · refine ⟨fun id => changed.fits id (standing.fits id), ?_, ?_⟩
    · intro id
      obtain ⟨origin, -, -, confined⟩ := each id
      exact confined.housed
    · intro id
      obtain ⟨origin, held, -, confined⟩ := each id
      exact confined.held held
  · intro settled id
    obtain ⟨origin, -, settles, confined⟩ := each id
    rw [confined.advance.make.allocator_eq]
    exact confined.advance.settled (settles settled)

theorem upholds_of_changes {touched : StorageId → Nat → Prop}
    (standing : Standing ⟨memory, buffers⟩)
    (changed : Memory.ChangesWithin touched memory after) :
    Upholds ⟨memory, buffers⟩ ⟨after, buffers⟩ :=
  upholds_of_derives standing changed (derives_of_changes standing changed)

theorem upholds_setIfInBounds {snug : Prop} {later : Buffer}
    (standing : Standing ⟨memory, buffers⟩)
    (confined : Buffer.Confined snug ((Workspace.mk memory buffers).buffer id) memory later after) :
    Upholds ⟨memory, buffers⟩ ⟨after, buffers.setIfInBounds id.index later⟩ := by
  have changed := confined.advance.changed
  by_cases inside : id.index < buffers.size
  · refine upholds_of_derives standing changed ?_
    intro other
    by_cases same : other = id
    · rw [same, buffer_setIfInBounds_self inside]
      exact derives_of_confined standing confined
    · rw [buffer_setIfInBounds_other same buffers later after memory]
      exact derives_of_changes standing changed other
  · rw [Array.setIfInBounds_eq_of_size_le (Nat.le_of_not_lt inside)]
    exact upholds_of_changes standing changed

theorem upholds_push {snug : Prop} {blank made : Buffer} (standing : Standing ⟨memory, buffers⟩)
    (block : blank.block = none) (confined : Buffer.Confined snug blank memory made after) :
    Upholds ⟨memory, buffers⟩ ⟨after, buffers.push made⟩ := by
  have changed := confined.advance.changed
  refine upholds_of_derives standing changed ?_
  intro other
  by_cases new : other = ⟨buffers.size⟩
  · rw [new, buffer_push_self]
    exact derives_of_blank block confined
  · rw [buffer_push_other new made after memory]
    exact derives_of_changes standing changed other

theorem upholds_taken (standing : Standing ⟨memory, buffers⟩)
    (changed : Memory.ChangesWithin (fun _ _ => False) memory after) (id : BufferId) :
    Upholds ⟨memory, buffers⟩ ⟨after, (buffers.setIfInBounds id.index
      ((Workspace.mk memory buffers).buffer id).emptied).push
        ((Workspace.mk memory buffers).buffer id)⟩ := by
  have left : Buffer.Confined True ((Workspace.mk memory buffers).buffer id) memory
      ((Workspace.mk memory buffers).buffer id).emptied after :=
    Buffer.confined_emptied (standing.housed id).read changed
  by_cases inside : id.index < buffers.size
  · refine upholds_of_derives standing changed ?_
    intro other
    rw [buffer_taken memory after inside]
    split
    · exact derives_of_changes standing changed id
    · split
      · exact derives_of_confined standing left
      · exact derives_of_changes standing changed other
  · rw [Array.setIfInBounds_eq_of_size_le (Nat.le_of_not_lt inside),
      buffer_eq_absent (Nat.le_of_not_lt inside)]
    have blank : Buffer.Confined True absentBuffer memory absentBuffer after :=
      .of_untouched (.of_empty Layout.isRead_byteLayout rfl) changed
    exact upholds_push standing rfl blank

/-! ## Allocators -/

theorem upholds_withArena (standing : Standing ⟨memory, buffers⟩) (size : Nat) :
    Upholds ⟨memory, buffers⟩ ⟨withArena memory size, buffers⟩ := by
  constructor
  · refine ⟨fun id => fits_withArena (standing.fits id) size, standing.housed, ?_⟩
    intro id extent known
    exact holds_withArena (standing.held id extent known) size
  · intro settled id extent known
    obtain ⟨held, taken⟩ := settled id extent known
    refine ⟨holds_withArena held size, ?_⟩
    rintro storage index covered remains
    refine taken storage index covered (remaining_withArena remains ?_)
    obtain ⟨rfl, -⟩ := covered
    exact held.storage_lt

theorem standing_reset (standing : Standing ⟨memory, buffers⟩) (id : AllocatorId) :
    (final (WorkspaceM.onMemory (Memory.reset id) ⟨memory, buffers⟩)).Standing := by
  unfold WorkspaceM.onMemory Memory.reset
  dsimp only
  cases known : memory.allocator id with
  | heap => exact standing
  | arena arena =>
      refine ⟨?_, standing.housed, ?_⟩
      · intro other region used found
        by_cases same : other = id
        · rw [same] at found
          change (memory.setAllocator id _).allocator id = _ at found
          rw [Memory.allocator_setAllocator_self known] at found
          obtain ⟨place, much⟩ := arena
          cases found
          have held := (standing.fits id region much known).1
          exact ⟨⟨held.storage_lt, held.stop_le⟩, Nat.zero_le _⟩
        · change (memory.setAllocator id _).allocator other = _ at found
          rw [Memory.allocator_setAllocator_other same] at found
          obtain ⟨held, bound⟩ := standing.fits other region used found
          exact ⟨⟨held.storage_lt, held.stop_le⟩, bound⟩
      · intro other extent found
        have held := standing.held other extent found
        exact ⟨held.storage_lt, held.stop_le⟩

end LexKit.Workspace
