import LexKit.Proofs.Memory.Affording

/-!
# What an allocator has spent

A granted request shows in the state of its allocator by the bytes that were asked for: an arena has
that many more in use, and a heap keeps no count. So what an allocator affords after a run of
requests is known from what it afforded before them.
-/

set_option autoImplicit false

namespace LexKit

def Allocator.spend (bytes : Nat) : Allocator → Allocator
  | .heap => .heap
  | .arena ⟨region, used⟩ => .arena ⟨region, used + bytes⟩

@[simp]
theorem Allocator.spend_zero (allocator : Allocator) : allocator.spend 0 = allocator := by
  cases allocator <;> rfl

theorem Allocator.spend_spend (first second : Nat) (allocator : Allocator) :
    (allocator.spend first).spend second = allocator.spend (first + second) := by
  cases allocator with
  | heap => rfl
  | arena arena => simp only [spend, Nat.add_assoc]

/-- The fault of an allocator that has no room for a block of `size` bytes. -/
def Allocator.shortage : Allocator → Nat → Fault
  | .heap, size => if maxSize < (size : Int) then .sizeOverflow else .heapExhausted size
  | .arena ⟨none, _⟩, _ => .arenaClosed
  | .arena ⟨some region, used⟩, size =>
      .arenaExhausted size ((region.size : Int) - used) region.size

namespace Memory

variable {memory after : Memory} {id : AllocatorId} {size : Int} {extent : Extent} {bytes : Nat}
  {rest : List Nat}

/-- An allocator that met a request has spent its size and nothing more. A heap does not count what
it spends. -/
theorem allocator_of_allocate (supplied : allocate id size memory = .ok extent after) :
    after.allocator id = (memory.allocator id).spend size.toNat := by
  rcases allocate_ok_cases supplied with
    ⟨heap, -, rfl⟩ | ⟨region, used, known, -, -, -, rfl⟩
  · rw [allocator_record, allocator_addStorage, heap]
    rfl
  · rw [allocator_record, allocator_setAllocator_self (by exact known), known]
    rfl

/-- There is room for more behind a size that was supplied if there was room for all of them. -/
theorem affords_cons_iff (positive : 0 < bytes)
    (supplied : allocate id bytes memory = .ok extent after) :
    memory.Affords id (bytes :: rest) ↔ after.Affords id rest := by
  have spent := allocator_of_allocate supplied
  have room := affords_of_allocate supplied
  rw [Int.toNat_natCast] at spent
  rcases memory.allocator_cases id with heap | ⟨used, known⟩ | ⟨region, used, known⟩
  · rw [heap] at spent
    rw [affords_heap heap, Machine.supplies_cons positive] at room ⊢
    rw [affords_heap spent, machine_of_allocate supplied]
    exact and_iff_right room.1
  · rw [known] at spent
    rw [affords_closed known] at room ⊢
    rw [affords_closed spent, List.forall_mem_cons]
    exact and_iff_right (room bytes List.mem_cons_self)
  · rw [known] at spent
    rw [affords_arena known, affords_arena spent, List.sum_cons, Nat.add_assoc]

/-- A request for which there is no room is refused. -/
theorem allocate_of_not_affords (lacking : ¬memory.Affords id [bytes]) :
    allocate id bytes memory = .error ((memory.allocator id).shortage bytes)
      (memory.record (.allocate id bytes none)) := by
  rcases memory.allocator_cases id with heap | ⟨used, known⟩ | ⟨region, used, known⟩
  · have ran := allocate_heap heap bytes
    rw [heap]
    split at ran
    · exact absurd (affords_of_allocate ran) lacking
    · exact ran
  · simp only [allocate, grant, known, Allocator.shortage]
  · rw [affords_arena known, List.sum_singleton] at lacking
    have ran := allocate_arena known bytes
    rw [known]
    rwa [if_neg lacking] at ran

/-! ## Blocks that are taken back -/

theorem takesBack_of_spend (spent : after.allocator id = (memory.allocator id).spend bytes)
    (block : Block) : after.takesBack id block = memory.takesBack id block := by
  unfold takesBack
  rw [spent]
  cases memory.allocator id <;> rfl

/-- An allocator takes back what it has just supplied. -/
theorem takesBack_of_allocate (supplied : allocate id size memory = .ok extent after) :
    after.takesBack id (.ofExtent extent) = true := by
  rw [takesBack_of_spend (allocator_of_allocate supplied)]
  rcases allocate_ok_cases supplied with ⟨heap, -, -⟩ | ⟨region, used, known, natural, room, rfl, -⟩
  · rw [takesBack, heap]
  · rw [takesBack, known]
    simp [Block.contains, Block.ofExtent, Block.stop]
    omega

end Memory

end LexKit
