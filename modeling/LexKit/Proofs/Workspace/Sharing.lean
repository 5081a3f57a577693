import LexKit.Workspace.Basic
import LexKit.Proofs.Buffer.Ownership
import Mathlib.Logic.Equiv.Basic

/-!
# Buffers that share a memory

The blocks of the buffers of a workspace lie apart from each other and from all that arenas have
left, and what two arenas have left lies apart too. Operations on one buffer keep it so, and leave
the bytes of every other buffer as they were.
-/

set_option autoImplicit false

namespace LexKit.Workspace

/-! ## Replacing and adding buffers -/

theorem buffer_setIfInBounds_self {buffers : Array Buffer} {id : BufferId}
    (known : id.index < buffers.size) (buffer : Buffer) (memory : Memory) :
    (Workspace.mk memory (buffers.setIfInBounds id.index buffer)).buffer id = buffer := by
  simp [Workspace.buffer, known]

theorem buffer_setIfInBounds_other {id other : BufferId} (different : other ≠ id)
    (buffers : Array Buffer) (buffer : Buffer) (memory before : Memory) :
    (Workspace.mk memory (buffers.setIfInBounds id.index buffer)).buffer other =
      (Workspace.mk before buffers).buffer other := by
  have index : ¬id.index = other.index := by
    intro same
    exact different (by cases id; cases other; exact congrArg BufferId.mk same.symm)
  simp [Workspace.buffer, index]

theorem buffer_push_self (buffers : Array Buffer) (buffer : Buffer) (memory : Memory) :
    (Workspace.mk memory (buffers.push buffer)).buffer ⟨buffers.size⟩ = buffer := by
  simp [Workspace.buffer]

theorem buffer_push_other {buffers : Array Buffer} {other : BufferId}
    (different : other ≠ ⟨buffers.size⟩) (buffer : Buffer) (memory before : Memory) :
    (Workspace.mk memory (buffers.push buffer)).buffer other =
      (Workspace.mk before buffers).buffer other := by
  have index : ¬other.index = buffers.size := by
    intro same
    exact different (by cases other; exact congrArg BufferId.mk same)
  simp [Workspace.buffer, Array.getElem?_push, index]

theorem buffer_eq_absent {workspace : Workspace} {id : BufferId}
    (unknown : workspace.buffers.size ≤ id.index) : workspace.buffer id = absentBuffer := by
  simp [Workspace.buffer, unknown]

theorem setIfInBounds_buffer (workspace : Workspace) (id : BufferId) :
    workspace.buffers.setIfInBounds id.index (workspace.buffer id) = workspace.buffers := by
  by_cases inside : id.index < workspace.buffers.size
  · unfold Workspace.buffer
    simp [Array.getD_eq_getD_getElem?, Array.setIfInBounds, inside]
  · exact Array.setIfInBounds_eq_of_size_le (Nat.le_of_not_lt inside)

/-! ## Blocks that lie apart -/

structure Sound (workspace : Workspace) : Prop where
  fits : ∀ id, workspace.memory.Fits id
  parted : ∀ first second, first ≠ second → ∀ storage index,
    workspace.memory.Remaining first storage index →
      ¬workspace.memory.Remaining second storage index
  settled : ∀ id allocator, (workspace.buffer id).Settled workspace.memory allocator
  disjoint : ∀ first second, first ≠ second → ∀ extent other,
    (workspace.buffer first).block = some extent → (workspace.buffer second).block = some other →
      extent.Disjoint other

variable {workspace after : Workspace}

theorem sound_empty (machine : Machine) : (Workspace.empty machine).Sound := by
  have no_arena : ∀ id arena, (Memory.empty machine).allocator id ≠ .arena arena := by
    intro id arena known
    cases known
  have no_block : ∀ id, ((Workspace.empty machine).buffer id).block = none := by
    intro id
    rfl
  refine ⟨?_, ?_, ?_, ?_⟩
  · intro id region used known
    exact absurd known (no_arena _ _)
  · rintro first second - storage index ⟨region, used, known, -⟩
    exact absurd known (no_arena _ _)
  · intro id allocator extent known
    rw [no_block] at known
    cases known
  · intro first second _ extent other known
    rw [no_block] at known
    cases known

theorem Sound.ready (sound : workspace.Sound) (id : BufferId) :
    (workspace.buffer id).Ready workspace.memory :=
  ⟨sound.fits _, sound.settled id _⟩

/-- `after` came about by an operation on one buffer: by an advance from `buffer`, which has the
block of the one that was there. -/
structure Replaced (id : BufferId) (buffer : Buffer) (workspace after : Workspace) : Prop where
  others : ∀ other, other ≠ id → after.buffer other = workspace.buffer other
  block_eq : buffer.block = (workspace.buffer id).block
  advance : Buffer.Advance (buffer.Tail 0) buffer workspace.memory (after.buffer id) after.memory

namespace Replaced

variable {id : BufferId} {buffer : Buffer}

private theorem untouched (replaced : Replaced id buffer workspace after) (sound : workspace.Sound)
    {other : BufferId} (different : other ≠ id) {extent : Extent}
    (known : (workspace.buffer other).block = some extent) {storage : StorageId} {index : Nat}
    (covered : extent.Covers storage index) :
    ¬(buffer.Tail 0 storage index ∨
      workspace.memory.Remaining buffer.allocator storage index) := by
  rintro (⟨own, block, rfl, above, below⟩ | remains)
  · rw [replaced.block_eq] at block
    exact sound.disjoint other id different extent own known block _ _ covered
      ⟨rfl, Nat.le_of_add_right_le above, below⟩
  · exact (sound.settled other buffer.allocator extent known).taken _ _ covered remains

/-- The bytes of the other buffers are where they were, because no two blocks share a byte. -/
theorem byteAt_eq (replaced : Replaced id buffer workspace after) (sound : workspace.Sound)
    {other : BufferId} (different : other ≠ id) (place : Nat) :
    (workspace.buffer other).byteAt after.memory place =
      (workspace.buffer other).byteAt workspace.memory place := by
  refine Buffer.byteAt_of_changes replaced.advance.changed
    (fun extent known => (sound.settled other buffer.allocator extent known).holds) ?_ place
  intro extent known storage index covered
  exact replaced.untouched sound different known covered

private theorem disjoint_obtained (replaced : Replaced id buffer workspace after)
    (sound : workspace.Sound) {other : BufferId} (different : other ≠ id) {extent obtained : Extent}
    (known : (workspace.buffer other).block = some extent)
    (block : (after.buffer id).block = some obtained) : extent.Disjoint obtained := by
  rcases replaced.advance.block obtained block with kept | fresh
  · rw [replaced.block_eq] at kept
    exact sound.disjoint other id different extent obtained known kept
  · intro storage index covered also
    have settled := sound.settled other buffer.allocator extent known
    rcases fresh storage index also with new | remains
    · obtain ⟨rfl, -⟩ := covered
      exact Nat.not_le_of_lt settled.holds.storage_lt new
    · exact settled.taken storage index covered remains

private theorem settled_obtained (replaced : Replaced id buffer workspace after)
    (sound : workspace.Sound) (allocator : AllocatorId) :
    (after.buffer id).Settled after.memory allocator := by
  intro obtained block
  have own := replaced.advance.settled (by
    intro extent known
    rw [replaced.block_eq] at known
    exact sound.settled id buffer.allocator extent known) obtained block
  refine ⟨own.holds, ?_⟩
  intro storage index covered remains
  by_cases same : allocator = buffer.allocator
  · subst same
    exact own.taken storage index covered remains
  · have before := replaced.advance.changed.remaining allocator storage index remains
    rcases replaced.advance.block obtained block with kept | fresh
    · rw [replaced.block_eq] at kept
      exact (sound.settled id allocator obtained kept).taken storage index covered before
    · rcases fresh storage index covered with new | also
      · obtain ⟨region, used, known, same, -⟩ := before
        have held := (sound.fits allocator region used known).1.storage_lt
        rw [← same] at held
        exact Nat.not_le_of_lt held new
      · exact sound.parted allocator buffer.allocator same storage index before also

theorem sound (replaced : Replaced id buffer workspace after) (sound : workspace.Sound) :
    after.Sound := by
  have changed := replaced.advance.changed
  refine ⟨fun allocator => changed.fits allocator (sound.fits allocator), ?_, ?_, ?_⟩
  · intro first second different storage index remains also
    exact sound.parted first second different storage index
      (changed.remaining first storage index remains)
      (changed.remaining second storage index also)
  · intro other allocator
    by_cases same : other = id
    · subst same
      exact replaced.settled_obtained sound allocator
    · intro extent known
      rw [replaced.others other same] at known
      exact changed.settled (sound.settled other allocator extent known)
  · intro first second different extent other known also
    by_cases isFirst : first = id
    · subst isFirst
      rw [replaced.others second different.symm] at also
      exact (replaced.disjoint_obtained sound different.symm also known).symm
    · rw [replaced.others first isFirst] at known
      by_cases isSecond : second = id
      · subst isSecond
        exact replaced.disjoint_obtained sound isFirst known also
      · rw [replaced.others second isSecond] at also
        exact sound.disjoint first second different extent other known also

end Replaced

/-! ## Blocks that change hands -/

/-- Each block has at most one owner, as before; no byte of a block was touched. -/
theorem Sound.exchanged (sound : workspace.Sound)
    (changed : Memory.ChangesWithin (fun _ _ => False) workspace.memory after.memory)
    (owner : Equiv.Perm BufferId)
    (blocks : ∀ id, (after.buffer id).block = (workspace.buffer (owner id)).block) :
    after.Sound := by
  refine ⟨fun allocator => changed.fits allocator (sound.fits allocator), ?_, ?_, ?_⟩
  · intro first second different storage index remains also
    exact sound.parted first second different storage index
      (changed.remaining first storage index remains)
      (changed.remaining second storage index also)
  · intro id allocator extent known
    rw [blocks] at known
    exact changed.settled (sound.settled (owner id) allocator extent known)
  · intro first second different extent other known also
    rw [blocks] at known also
    exact sound.disjoint (owner first) (owner second) (owner.injective.ne different) extent other
      known also

theorem Sound.byteAt_eq {final : Memory} (sound : workspace.Sound)
    (changed : Memory.ChangesWithin (fun _ _ => False) workspace.memory final)
    (id : BufferId) (place : Nat) :
    (workspace.buffer id).byteAt final place =
      (workspace.buffer id).byteAt workspace.memory place :=
  Buffer.byteAt_of_changes changed
    (fun extent known => (sound.settled id ⟨0⟩ extent known).holds)
    (fun _ _ _ _ _ untouched => untouched) place

/-! ## New allocators -/

/-- An allocator that was not made counts as a heap, so a new heap changes nothing. -/
theorem changesWithin_newHeap (memory : Memory) :
    Memory.ChangesWithin (fun _ _ => False) memory (memory.addAllocator .heap).2 := by
  have same : ∀ id, (memory.addAllocator .heap).2.allocator id = memory.allocator id := by
    intro id
    simp only [Memory.allocator, Memory.addAllocator, Array.getD_eq_getD_getElem?,
      Array.getElem?_push]
    split
    · rename_i last
      rw [last, Array.getElem?_eq_none (Nat.le_refl _)]
      rfl
    · rfl
  refine ⟨Nat.le_refl _, fun _ _ => rfl, ?_, ?_, fun _ _ _ _ => rfl⟩
  · rintro id storage index ⟨region, used, known, rest⟩
    rw [same] at known
    exact ⟨region, used, known, rest⟩
  · intro id fits region used known
    rw [same] at known
    obtain ⟨held, bound⟩ := fits region used known
    exact ⟨⟨held.storage_lt, held.stop_le⟩, bound⟩

theorem sound_newHeap (sound : workspace.Sound) :
    Sound ⟨(workspace.memory.addAllocator .heap).2, workspace.buffers⟩ ∧
      Memory.ChangesWithin (fun _ _ => False) workspace.memory
        (workspace.memory.addAllocator .heap).2 :=
  have changed := changesWithin_newHeap workspace.memory
  ⟨sound.exchanged changed (Equiv.refl _) fun _ => rfl, changed⟩

def withArena (memory : Memory) (size : Nat) : Memory :=
  ((memory.addStorage (Storage.zeros size)).2.addAllocator
    (.arena ⟨some ⟨(memory.addStorage (Storage.zeros size)).1, 0, size⟩, 0⟩)).2

private theorem allocator_withArena_self (memory : Memory) (size : Nat) :
    (withArena memory size).allocator ⟨memory.allocators.size⟩ =
      .arena ⟨some ⟨(memory.addStorage (Storage.zeros size)).1, 0, size⟩, 0⟩ := by
  simp [withArena, Memory.allocator, Memory.addAllocator, Memory.addStorage]

private theorem allocator_withArena_other {memory : Memory} {id : AllocatorId}
    (different : id ≠ ⟨memory.allocators.size⟩) (size : Nat) :
    (withArena memory size).allocator id = memory.allocator id := by
  have index : ¬id.index = memory.allocators.size := by
    intro same
    exact different (by cases id; exact congrArg AllocatorId.mk same)
  simp [withArena, Memory.allocator, Memory.addAllocator, Memory.addStorage, Array.getElem?_push,
    index]

theorem remaining_withArena {memory : Memory} {size : Nat} {id : AllocatorId}
    {storage : StorageId} {index : Nat}
    (remains : (withArena memory size).Remaining id storage index)
    (old : storage.index < memory.storages.size) : memory.Remaining id storage index := by
  obtain ⟨region, used, known, same, bounds⟩ := remains
  by_cases new : id = ⟨memory.allocators.size⟩
  · subst new
    rw [allocator_withArena_self] at known
    cases known
    rw [same] at old
    exact absurd old (Nat.lt_irrefl _)
  · rw [allocator_withArena_other new] at known
    exact ⟨region, used, known, same, bounds⟩

theorem holds_withArena {memory : Memory} {extent : Extent} (held : memory.Holds extent)
    (size : Nat) : (withArena memory size).Holds extent := by
  have grown := (Memory.changesWithin_addStorage (fun _ _ => False) memory
    (Storage.zeros size)).holds held
  exact ⟨grown.storage_lt, grown.stop_le⟩

theorem fits_withArena {memory : Memory} {id : AllocatorId} (fits : memory.Fits id) (size : Nat) :
    (withArena memory size).Fits id := by
  intro region used known
  by_cases new : id = ⟨memory.allocators.size⟩
  · subst new
    rw [allocator_withArena_self] at known
    cases known
    have held := Memory.holds_addStorage memory size
    exact ⟨⟨held.storage_lt, held.stop_le⟩, Nat.zero_le _⟩
  · rw [allocator_withArena_other new] at known
    obtain ⟨held, bound⟩ := fits region used known
    exact ⟨holds_withArena held size, bound⟩

theorem sound_withArena (sound : workspace.Sound) (size : Nat) :
    Sound ⟨withArena workspace.memory size, workspace.buffers⟩ := by
  -- The new arena has bytes of the new storage left, and all others have what they had left.
  have new_remaining : ∀ storage index, (withArena workspace.memory size).Remaining
      ⟨workspace.memory.allocators.size⟩ storage index →
        storage.index = workspace.memory.storages.size := by
    rintro storage index ⟨region, used, known, rfl, -⟩
    rw [allocator_withArena_self] at known
    cases known
    rfl
  have old_remaining : ∀ id, id ≠ ⟨workspace.memory.allocators.size⟩ → ∀ storage index,
      (withArena workspace.memory size).Remaining id storage index →
        workspace.memory.Remaining id storage index := by
    rintro id different storage index ⟨region, used, known, rest⟩
    rw [allocator_withArena_other different] at known
    exact ⟨region, used, known, rest⟩
  refine ⟨fun id => fits_withArena (sound.fits id) size, ?_, ?_, sound.disjoint⟩
  · intro first second different storage index remains also
    by_cases isFirst : first = ⟨workspace.memory.allocators.size⟩
    · subst isFirst
      have old := (sound.fits second).storage_lt_of_remaining
        (old_remaining second different.symm _ _ also)
      rw [new_remaining storage index remains] at old
      exact Nat.lt_irrefl _ old
    · have before := old_remaining first isFirst _ _ remains
      have old := (sound.fits first).storage_lt_of_remaining before
      exact sound.parted first second different storage index before (remaining_withArena also old)
  · intro id allocator extent known
    have settled := sound.settled id allocator extent known
    refine ⟨holds_withArena settled.holds size, ?_⟩
    intro storage index covered remains
    have old : storage.index < workspace.memory.storages.size := by
      obtain ⟨rfl, -⟩ := covered
      exact settled.holds.storage_lt
    exact settled.taken storage index covered (remaining_withArena remains old)

theorem byteAt_withArena (sound : workspace.Sound) (size : Nat) (id : BufferId) (place : Nat) :
    (workspace.buffer id).byteAt (withArena workspace.memory size) place =
      (workspace.buffer id).byteAt workspace.memory place :=
  Buffer.byteAt_of_changes
    (Memory.changesWithin_addStorage (fun _ _ => False) workspace.memory (Storage.zeros size))
    (fun extent known => (sound.settled id ⟨0⟩ extent known).holds)
    (fun _ _ _ _ _ untouched => untouched) place

end LexKit.Workspace
