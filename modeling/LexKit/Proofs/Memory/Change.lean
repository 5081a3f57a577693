import LexKit.Memory.Allocator
import LexKit.Proofs.Memory.Storage

/-!
# Changes of a memory

A byte is named by its storage and its index there. `ChangesWithin touched` relates a memory to a
later one that differs from it at touched bytes only, in which no storage became smaller or larger,
and whose arenas have no bytes left to hand out that they had handed out before. Such changes can be
put one behind the other, and they leave alone what lies outside the touched bytes.
-/

set_option autoImplicit false

namespace LexKit

namespace Extent

def Covers (extent : Extent) (storage : StorageId) (index : Nat) : Prop :=
  storage = extent.storage ∧ extent.start ≤ index ∧ index < extent.stop

def Disjoint (first second : Extent) : Prop :=
  ∀ storage index, first.Covers storage index → ¬second.Covers storage index

theorem Disjoint.symm {first second : Extent} (apart : first.Disjoint second) :
    second.Disjoint first :=
  fun storage index covered => fun also => apart storage index also covered

end Extent

namespace Memory

/-! ## The parts of a memory after its primitive operations -/

@[simp]
theorem allocator_addStorage (memory : Memory) (storage : Storage) (other : AllocatorId) :
    (memory.addStorage storage).2.allocator other = memory.allocator other :=
  rfl

@[simp]
theorem size_storages_updateStorage (memory : Memory) (id : StorageId)
    (change : Storage → Storage) :
    (memory.updateStorage id change).storages.size = memory.storages.size := by
  simp [updateStorage]

@[simp]
theorem size_storages_addStorage (memory : Memory) (storage : Storage) :
    (memory.addStorage storage).2.storages.size = memory.storages.size + 1 := by
  simp [addStorage]

theorem storage_updateStorage_self {memory : Memory} {id : StorageId}
    (known : id.index < memory.storages.size) (change : Storage → Storage) :
    (memory.updateStorage id change).storage id = change (memory.storage id) := by
  simp [storage, updateStorage, Array.getElem_modify, known]

theorem storage_updateStorage_other {memory : Memory} {id other : StorageId}
    (different : other ≠ id)
    (change : Storage → Storage) :
    (memory.updateStorage id change).storage other = memory.storage other := by
  have index : ¬id.index = other.index := by
    intro same
    exact different (by cases id; cases other; exact congrArg StorageId.mk same.symm)
  simp [storage, updateStorage, Array.getElem?_modify, index]

theorem storage_write_self {memory : Memory} {id : StorageId}
    (known : id.index < memory.storages.size) (start : Nat) (bytes : Bytes) :
    (memory.write id start bytes).storage id = (memory.storage id).write start bytes :=
  storage_updateStorage_self known _

theorem storage_addStorage_old {memory : Memory} {id : StorageId}
    (known : id.index < memory.storages.size) (storage : Storage) :
    (memory.addStorage storage).2.storage id = memory.storage id := by
  simp [Memory.storage, addStorage, Array.getElem?_push, Nat.ne_of_lt known]

@[simp]
theorem storage_addStorage_new (memory : Memory) (storage : Storage) :
    (memory.addStorage storage).2.storage (memory.addStorage storage).1 = storage := by
  simp [Memory.storage, addStorage]

@[simp]
theorem storage_setAllocator (memory : Memory) (id : AllocatorId) (allocator : Allocator)
    (storage : StorageId) :
    (memory.setAllocator id allocator).storage storage = memory.storage storage :=
  rfl

@[simp]
theorem allocator_record (memory : Memory) (call : AllocatorCall) (id : AllocatorId) :
    (memory.record call).allocator id = memory.allocator id :=
  rfl

theorem allocator_setAllocator_other {memory : Memory} {id other : AllocatorId}
    (different : other ≠ id) (allocator : Allocator) :
    (memory.setAllocator id allocator).allocator other = memory.allocator other := by
  have index : ¬id.index = other.index := by
    intro same
    exact different (by cases id; cases other; exact congrArg AllocatorId.mk same.symm)
  simp [Memory.allocator, setAllocator, index]

theorem lt_of_allocator_eq_arena {memory : Memory} {id : AllocatorId} {arena : Arena}
    (known : memory.allocator id = .arena arena) : id.index < memory.allocators.size := by
  by_cases inside : id.index < memory.allocators.size
  · exact inside
  · rw [Memory.allocator, Array.getD_eq_getD_getElem?,
      Array.getElem?_eq_none (Nat.le_of_not_lt inside)] at known
    cases known

theorem allocator_setAllocator_self {memory : Memory} {id : AllocatorId} {arena : Arena}
    (known : memory.allocator id = .arena arena) (allocator : Allocator) :
    (memory.setAllocator id allocator).allocator id = allocator := by
  simp [Memory.allocator, setAllocator, lt_of_allocator_eq_arena known]

/-! ## Bytes that are in a storage, and bytes that an arena has left -/

/-- All bytes of the extent are bytes of a storage. -/
structure Holds (memory : Memory) (extent : Extent) : Prop where
  storage_lt : extent.storage.index < memory.storages.size
  stop_le : extent.stop ≤ (memory.storage extent.storage).size

/-- The byte is one that an open arena has not handed out yet. -/
def Remaining (memory : Memory) (id : AllocatorId) (storage : StorageId) (index : Nat) : Prop :=
  ∃ region used, memory.allocator id = .arena ⟨some region, used⟩ ∧ storage = region.storage ∧
    region.start + used ≤ index ∧ index < region.stop

/-- The region of an open arena lies in a storage, and the arena has not used more than that. -/
def Fits (memory : Memory) (id : AllocatorId) : Prop :=
  ∀ region used, memory.allocator id = .arena ⟨some region, used⟩ →
    memory.Holds region ∧ used ≤ region.size

theorem Fits.storage_lt_of_remaining {memory : Memory} {id : AllocatorId} {storage : StorageId}
    {index : Nat} (fits : memory.Fits id) (remains : memory.Remaining id storage index) :
    storage.index < memory.storages.size := by
  obtain ⟨region, used, known, rfl, -⟩ := remains
  exact (fits region used known).1.storage_lt

theorem holds_addStorage (memory : Memory) (size : Nat) :
    (memory.addStorage (Storage.zeros size)).2.Holds
      ⟨(memory.addStorage (Storage.zeros size)).1, 0, size⟩ := by
  refine ⟨?_, ?_⟩
  · rw [size_storages_addStorage]
    exact Nat.lt_succ_self _
  · simp only [storage_addStorage_new, Storage.size_zeros, Extent.stop, Nat.zero_add, Nat.le_refl]

/-- No byte of the extent is one that the allocator has left to hand out. -/
structure Settled (memory : Memory) (id : AllocatorId) (extent : Extent) : Prop where
  holds : memory.Holds extent
  taken : ∀ storage index, extent.Covers storage index → ¬memory.Remaining id storage index

/-! ## Changes -/

structure ChangesWithin (touched : StorageId → Nat → Prop) (memory after : Memory) : Prop where
  count_le : memory.storages.size ≤ after.storages.size
  size_eq : ∀ id : StorageId, id.index < memory.storages.size →
    (after.storage id).size = (memory.storage id).size
  remaining : ∀ id storage index, after.Remaining id storage index →
    memory.Remaining id storage index
  fits : ∀ id, memory.Fits id → after.Fits id
  byte_eq : ∀ (storage : StorageId) (index : Nat), storage.index < memory.storages.size →
    ¬touched storage index →
      (after.storage storage).byte index = (memory.storage storage).byte index

namespace ChangesWithin

variable {touched : StorageId → Nat → Prop} {first second third : Memory}

theorem refl (touched : StorageId → Nat → Prop) (memory : Memory) :
    ChangesWithin touched memory memory :=
  ⟨Nat.le_refl _, fun _ _ => rfl, fun _ _ _ left => left, fun _ fits => fits, fun _ _ _ _ => rfl⟩

/-- Changes add up. Later ones may also touch bytes of storages that did not exist at first. -/
theorem trans {later : StorageId → Nat → Prop} (left : ChangesWithin touched first second)
    (right : ChangesWithin later second third)
    (covers : ∀ (storage : StorageId) (index : Nat), storage.index < first.storages.size →
      later storage index → touched storage index) :
    ChangesWithin touched first third := by
  refine ⟨Nat.le_trans left.count_le right.count_le, ?_, ?_, ?_, ?_⟩
  · intro id known
    rw [right.size_eq id (Nat.lt_of_lt_of_le known left.count_le), left.size_eq id known]
  · intro id storage index remains
    exact left.remaining id storage index (right.remaining id storage index remains)
  · intro id fits
    exact right.fits id (left.fits id fits)
  · intro storage index known untouched
    rw [right.byte_eq storage index (Nat.lt_of_lt_of_le known left.count_le)
      fun also => untouched (covers storage index known also),
      left.byte_eq storage index known untouched]

/-- More bytes may be counted as touched than really changed. Those of storages that did not exist
need not be counted. -/
theorem mono {wider : StorageId → Nat → Prop} (changed : ChangesWithin touched first second)
    (covers : ∀ (storage : StorageId) (index : Nat), storage.index < first.storages.size →
      touched storage index → wider storage index) : ChangesWithin wider first second :=
  ⟨changed.count_le, changed.size_eq, changed.remaining, changed.fits,
    fun storage index known untouched =>
      changed.byte_eq storage index known fun also => untouched (covers storage index known also)⟩

/-- Memory is never taken away: an extent that had its bytes in a storage has them there after any
change. -/
theorem holds {extent : Extent} (changed : ChangesWithin touched first second)
    (held : first.Holds extent) : second.Holds extent := by
  refine ⟨Nat.lt_of_lt_of_le held.storage_lt changed.count_le, ?_⟩
  rw [changed.size_eq extent.storage held.storage_lt]
  exact held.stop_le

theorem settled {id : AllocatorId} {extent : Extent} (changed : ChangesWithin touched first second)
    (settled : first.Settled id extent) : second.Settled id extent :=
  ⟨changed.holds settled.holds, fun storage index covered remains =>
    settled.taken storage index covered (changed.remaining id storage index remains)⟩

theorem read_eq {extent : Extent} (changed : ChangesWithin touched first second)
    (held : first.Holds extent)
    (untouched : ∀ storage index, extent.Covers storage index → ¬touched storage index) :
    second.read extent = first.read extent := by
  apply Storage.read_congr (changed.size_eq extent.storage held.storage_lt)
  intro index above below
  exact changed.byte_eq extent.storage index held.storage_lt
    (untouched extent.storage index ⟨rfl, above, below⟩)

end ChangesWithin

theorem changesWithin_record (touched : StorageId → Nat → Prop) (memory : Memory)
    (call : AllocatorCall) : ChangesWithin touched memory (memory.record call) := by
  refine ⟨Nat.le_refl _, fun _ _ => rfl, fun _ _ _ remains => remains, ?_, fun _ _ _ _ => rfl⟩
  intro id fits region used known
  obtain ⟨held, bound⟩ := fits region used known
  exact ⟨⟨held.storage_lt, held.stop_le⟩, bound⟩

theorem changesWithin_addStorage (touched : StorageId → Nat → Prop) (memory : Memory)
    (storage : Storage) : ChangesWithin touched memory (memory.addStorage storage).2 := by
  refine ⟨by simp, ?_, fun _ _ _ left => left, ?_, ?_⟩
  · intro id known
    rw [storage_addStorage_old known]
  · intro other fits region used known
    obtain ⟨held, bound⟩ := fits region used known
    refine ⟨⟨?_, ?_⟩, bound⟩
    · rw [size_storages_addStorage]
      exact Nat.lt_succ_of_lt held.storage_lt
    · rw [storage_addStorage_old held.storage_lt]
      exact held.stop_le
  · intro id index known _
    rw [storage_addStorage_old known]

theorem changesWithin_updateStorage {touched : StorageId → Nat → Prop} (memory : Memory)
    (id : StorageId) (change : Storage → Storage)
    (size : (change (memory.storage id)).size = (memory.storage id).size)
    (bytes : ∀ index, ¬touched id index →
      (change (memory.storage id)).byte index = (memory.storage id).byte index) :
    ChangesWithin touched memory (memory.updateStorage id change) := by
  have sizes : ∀ storage : StorageId, storage.index < memory.storages.size →
      ((memory.updateStorage id change).storage storage).size = (memory.storage storage).size := by
    intro storage known
    by_cases same : storage = id
    · subst same
      rw [storage_updateStorage_self known, size]
    · rw [storage_updateStorage_other same]
  refine ⟨Nat.le_of_eq (size_storages_updateStorage memory id change).symm, sizes,
    fun _ _ _ remains => remains, ?_, ?_⟩
  · intro allocator fits region used known
    obtain ⟨held, bound⟩ := fits region used known
    refine ⟨⟨by simpa using held.storage_lt, ?_⟩, bound⟩
    rw [sizes region.storage held.storage_lt]
    exact held.stop_le
  · intro storage index known untouched
    by_cases same : storage = id
    · subst same
      rw [storage_updateStorage_self known, bytes index untouched]
    · rw [storage_updateStorage_other same]

theorem changesWithin_write (memory : Memory) (id : StorageId) (start : Nat) (bytes : Bytes) :
    ChangesWithin
      (fun storage index => storage = id ∧ start ≤ index ∧ index < start + bytes.length)
      memory (memory.write id start bytes) := by
  refine changesWithin_updateStorage memory id _ (Storage.size_write _ start bytes) ?_
  intro index untouched
  apply Storage.byte_write_outside
  by_cases before : index < start
  · exact .inl before
  · refine .inr (Nat.le_of_not_lt fun inside => untouched ⟨rfl, ?_, inside⟩)
    exact Nat.le_of_not_lt before

theorem changesWithin_zero (memory : Memory) (id : StorageId) (start count : Nat) :
    ChangesWithin (fun storage index => storage = id ∧ start ≤ index ∧ index < start + count)
      memory (memory.updateStorage id (·.zero start count)) := by
  refine changesWithin_updateStorage memory id _ (Storage.size_zero _ start count) ?_
  intro index untouched
  rw [Storage.byte_zero, if_neg]
  exact fun inside => untouched ⟨rfl, inside⟩

end Memory

end LexKit
