import LexKit.Proofs.Memory.Allocation

/-!
# Refused requests

An allocator that refuses a request does nothing to the memory but record the request. `Intact`
says so of actions that ask for memory and give up when it is refused: all allocators are left as
they were, and so is every storage. Such an action may have made a storage of its own, which no one
holds then.
-/

set_option autoImplicit false

namespace LexKit

def Fault.isRefusal : Fault → Bool
  | negativeSize _ | heapExhausted _ | negativeCapacity _ | arenaClosed | arenaExhausted .. => true
  | _ => false

namespace Memory

structure Intact (memory after : Memory) : Prop where
  allocators_eq : after.allocators = memory.allocators
  count_le : memory.storages.size ≤ after.storages.size
  storage_eq : ∀ id : StorageId, id.index < memory.storages.size →
    after.storage id = memory.storage id

variable {first second third : Memory}

namespace Intact

theorem refl (memory : Memory) : Intact memory memory :=
  ⟨rfl, Nat.le_refl _, fun _ _ => rfl⟩

theorem trans (left : Intact first second) (right : Intact second third) : Intact first third := by
  refine ⟨right.allocators_eq.trans left.allocators_eq,
    Nat.le_trans left.count_le right.count_le, ?_⟩
  intro id known
  rw [right.storage_eq id (Nat.lt_of_lt_of_le known left.count_le), left.storage_eq id known]

/-- What a refusal leaves intact includes every extent that had its bytes in a storage. -/
theorem holds {extent : Extent} (intact : Intact first second) (held : first.Holds extent) :
    second.Holds extent := by
  refine ⟨Nat.lt_of_lt_of_le held.storage_lt intact.count_le, ?_⟩
  rw [intact.storage_eq extent.storage held.storage_lt]
  exact held.stop_le

theorem changes (intact : Intact first second) (touched : StorageId → Nat → Prop) :
    ChangesWithin touched first second := by
  have allocator_eq : ∀ id, second.allocator id = first.allocator id := by
    intro id
    rw [allocator, allocator, intact.allocators_eq]
  refine ⟨intact.count_le, ?_, ?_, ?_, ?_⟩
  · intro id known
    rw [intact.storage_eq id known]
  · rintro id storage index ⟨region, used, known, rest⟩
    rw [allocator_eq] at known
    exact ⟨region, used, known, rest⟩
  · intro id fits region used known
    rw [allocator_eq] at known
    obtain ⟨held, bound⟩ := fits region used known
    exact ⟨intact.holds held, bound⟩
  · intro storage index known _
    rw [intact.storage_eq storage known]

end Intact

theorem intact_addStorage (memory : Memory) (storage : Storage) :
    memory.Intact (memory.addStorage storage).2 := by
  refine ⟨rfl, ?_, ?_⟩
  · rw [size_storages_addStorage]
    exact Nat.le_succ _
  · intro id known
    exact storage_addStorage_old known storage

theorem intact_of_allocate {memory after : Memory} {id : AllocatorId} {size : Int} {fault : Fault}
    (refused : allocate id size memory = .error fault after) : memory.Intact after := by
  cases allocate_error refused
  exact ⟨rfl, Nat.le_refl _, fun _ _ => rfl⟩

end Memory

end LexKit
