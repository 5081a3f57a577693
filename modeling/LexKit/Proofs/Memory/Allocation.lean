import LexKit.Proofs.Memory.Change
import LexKit.Proofs.Running

/-!
# Allocation

What a granted request gives: an extent of the requested size, all zeros, made of bytes that no one
else can have. For an arena these are bytes that it had left; for the heap they are bytes of a
storage that did not exist before.
-/

set_option autoImplicit false

namespace LexKit

/-- The fault of a request for memory that is not met for want of memory. -/
def Fault.IsShortage : Fault → Bool
  | sizeOverflow => true
  | heapExhausted _ => true
  | outOfMemory => true
  | arenaClosed => true
  | arenaExhausted .. => true
  | _ => false

/-- The machine can count so many bytes, and has them. -/
def Machine.Has (machine : Machine) (size : Nat) : Prop :=
  (size : Int) ≤ maxSize ∧ machine.refuses 0 size = false

instance (machine : Machine) (size : Nat) : Decidable (machine.Has size) :=
  inferInstanceAs (Decidable (_ ∧ _))

/-- The two checks of a size, one after the other, as one. -/
theorem Machine.ite_has {α : Type} (machine : Machine) (size : Nat)
    (uncountable lacking supplied : α) :
    (if maxSize < (size : Int) then uncountable
      else if machine.refuses 0 size then lacking else supplied) =
      if machine.Has size then supplied
      else if maxSize < (size : Int) then uncountable else lacking := by
  by_cases huge : maxSize < (size : Int)
  · rw [if_pos huge, if_pos huge, if_neg fun has => Int.not_le.mpr huge has.1]
  · rw [if_neg huge, if_neg huge]
    cases lacked : machine.refuses 0 size with
    | true => rw [if_pos rfl, if_neg fun has => Bool.noConfusion (lacked.symm.trans has.2)]
    | false => rw [if_neg Bool.false_ne_true, if_pos ⟨Int.not_lt.mp huge, lacked⟩]

namespace Memory

theorem allocator_cases (memory : Memory) (id : AllocatorId) :
    memory.allocator id = .heap ∨ (∃ used, memory.allocator id = .arena ⟨none, used⟩) ∨
      ∃ region used, memory.allocator id = .arena ⟨some region, used⟩ := by
  cases known : memory.allocator id with
  | heap => exact .inl rfl
  | arena arena =>
      obtain ⟨region, used⟩ := arena
      cases region with
      | none => exact .inr (.inl ⟨used, rfl⟩)
      | some region => exact .inr (.inr ⟨region, used, rfl⟩)

/-- `memory` turned into `after` when the allocator supplied `extent`. -/
structure Granted (memory : Memory) (id : AllocatorId) (size : Int) (extent : Extent)
    (after : Memory) : Prop where
  size_eq : (extent.size : Int) = size
  changed : ChangesWithin extent.Covers memory after
  holds : after.Holds extent
  /-- The bytes are new, or were left in the arena. -/
  fresh : ∀ storage index, extent.Covers storage index →
    memory.storages.size ≤ storage.index ∨ memory.Remaining id storage index
  /-- The arena does not have them left any more. -/
  taken : ∀ storage index, extent.Covers storage index → ¬after.Remaining id storage index
  zeros : after.read extent = List.replicate extent.size 0
  others : ∀ other, other ≠ id → after.allocator other = memory.allocator other

private theorem granted_heap {memory : Memory} {id : AllocatorId} {size : Int}
    (heap : memory.allocator id = .heap) (natural : 0 ≤ size) :
    Granted memory id size ⟨(memory.addStorage (Storage.zeros size.toNat)).1, 0, size.toNat⟩
      (memory.addStorage (Storage.zeros size.toNat)).2 := by
  have new : memory.storages.size ≤ (memory.addStorage (Storage.zeros size.toNat)).1.index :=
    Nat.le_refl _
  refine ⟨Int.toNat_of_nonneg natural, changesWithin_addStorage _ memory _,
    holds_addStorage memory size.toNat, ?_, ?_, ?_, fun _ _ => rfl⟩
  · rintro storage index ⟨rfl, -⟩
    exact .inl new
  · rintro storage index - ⟨region, used, known, -⟩
    rw [allocator_addStorage, heap] at known
    cases known
  · rw [read, storage_addStorage_new]
    have zeros : (Storage.zeros size.toNat).read 0 (List.replicate size.toNat (0 : UInt8)).length =
        List.replicate size.toNat 0 := Storage.read_eq (by simp) (by simp)
    rwa [List.length_replicate] at zeros

private theorem granted_arena {memory : Memory} {id : AllocatorId} {size : Int} {region : Extent}
    {used : Nat} (open_ : memory.allocator id = .arena ⟨some region, used⟩)
    (fits : memory.Fits id) (natural : 0 ≤ size) (room : used + size ≤ region.size) :
    Granted memory id size ⟨region.storage, region.start + used, size.toNat⟩
      ((memory.updateStorage region.storage (·.zero (region.start + used) size.toNat)).setAllocator
        id (.arena ⟨some region, used + size.toNat⟩)) := by
  obtain ⟨held, bound⟩ := fits region used open_
  have total : used + size.toNat ≤ region.size := by omega
  have cleared := changesWithin_zero memory region.storage (region.start + used) size.toNat
  have now : ((memory.updateStorage region.storage
      (·.zero (region.start + used) size.toNat)).setAllocator id
        (.arena ⟨some region, used + size.toNat⟩)).allocator id =
      .arena ⟨some region, used + size.toNat⟩ := allocator_setAllocator_self open_ _
  have others : ∀ other, other ≠ id → ((memory.updateStorage region.storage
      (·.zero (region.start + used) size.toNat)).setAllocator id
        (.arena ⟨some region, used + size.toNat⟩)).allocator other = memory.allocator other :=
    fun other different => allocator_setAllocator_other different _
  have stop_le := held.stop_le
  rw [Extent.stop] at stop_le
  refine ⟨Int.toNat_of_nonneg natural, ⟨cleared.count_le, cleared.size_eq, ?_, ?_, ?_⟩, ⟨?_, ?_⟩,
    ?_, ?_, ?_, others⟩
  · rintro other storage index ⟨place, much, known, rfl, above, below⟩
    by_cases same : other = id
    · subst same
      rw [now] at known
      cases known
      exact ⟨_, _, open_, rfl, by omega, below⟩
    · rw [others other same] at known
      exact ⟨_, _, known, rfl, above, below⟩
  · intro other otherFits place much known
    by_cases same : other = id
    · subst same
      rw [now] at known
      cases known
      have kept := cleared.holds held
      exact ⟨⟨kept.storage_lt, kept.stop_le⟩, total⟩
    · rw [others other same] at known
      obtain ⟨otherHeld, otherBound⟩ := otherFits place much known
      have kept := cleared.holds otherHeld
      exact ⟨⟨kept.storage_lt, kept.stop_le⟩, otherBound⟩
  · intro storage index known untouched
    exact cleared.byte_eq storage index known untouched
  · exact Nat.lt_of_lt_of_le held.storage_lt cleared.count_le
  · have sized := cleared.size_eq region.storage held.storage_lt
    rw [storage_setAllocator, sized]
    simp only [Extent.stop]
    omega
  · rintro storage index ⟨rfl, above, below⟩
    simp only [Extent.stop] at above below
    exact .inr ⟨region, used, open_, rfl, above, by simp only [Extent.stop]; omega⟩
  · rintro storage index ⟨rfl, above, below⟩ ⟨place, much, known, -, first, -⟩
    rw [now] at known
    cases known
    simp only [Extent.stop] at below
    omega
  · rw [read, storage_setAllocator, storage_updateStorage_self held.storage_lt]
    exact Storage.read_zero_self (by omega)

/-- An open arena grants what it has room for: the next bytes of its region. -/
theorem grant_arena {memory : Memory} {id : AllocatorId} {size : Int} {region : Extent} {used : Nat}
    (open_ : memory.allocator id = .arena ⟨some region, used⟩) (natural : ¬size < 0)
    (room : (used : Int) + size ≤ region.size) :
    memory.grant id size =
      (.ok ⟨region.storage, region.start + used, size.toNat⟩,
        (memory.updateStorage region.storage (·.zero (region.start + used) size.toNat)).setAllocator
          id (.arena ⟨some region, used + size.toNat⟩)) := by
  unfold grant
  simp only [open_, natural, Int.not_lt.mpr room, ↓reduceIte]

/-- What a request comes to that is met: a storage of its own from the heap, or the next bytes of an
arena that has them. -/
theorem grant_ok_cases {memory after : Memory} {id : AllocatorId} {size : Int} {extent : Extent}
    (supplied : memory.grant id size = (.ok extent, after)) :
    (memory.allocator id = .heap ∧ 0 ≤ size ∧
      extent = ⟨⟨memory.storages.size⟩, 0, size.toNat⟩ ∧
      after = (memory.addStorage (Storage.zeros size.toNat)).2) ∨
    ∃ region used, memory.allocator id = .arena ⟨some region, used⟩ ∧ 0 ≤ size ∧
      (used : Int) + size ≤ region.size ∧
      extent = ⟨region.storage, region.start + used, size.toNat⟩ ∧
      after = (memory.updateStorage region.storage
        (·.zero (region.start + used) size.toNat)).setAllocator id
          (.arena ⟨some region, used + size.toNat⟩) := by
  unfold grant at supplied
  rcases memory.allocator_cases id with heap | ⟨used, known⟩ | ⟨region, used, known⟩
  · rw [heap] at supplied
    dsimp only at supplied
    split at supplied
    · cases supplied
    · rename_i natural
      split at supplied
      · cases supplied
      · split at supplied
        · cases supplied
        · cases supplied
          exact .inl ⟨heap, Int.not_lt.mp natural, rfl, rfl⟩
  · rw [known] at supplied
    cases supplied
  · rw [known] at supplied
    dsimp only at supplied
    split at supplied
    · cases supplied
    · rename_i natural
      split at supplied
      · cases supplied
      · rename_i room
        cases supplied
        exact .inr ⟨region, used, known, Int.not_lt.mp natural, Int.not_lt.mp room, rfl, rfl⟩

theorem granted_of_grant {memory after : Memory} {id : AllocatorId} {size : Int} {extent : Extent}
    (fits : memory.Fits id) (supplied : memory.grant id size = (.ok extent, after)) :
    Granted memory id size extent after := by
  rcases grant_ok_cases supplied with
    ⟨heap, natural, rfl, rfl⟩ | ⟨region, used, known, natural, room, rfl, rfl⟩
  · exact granted_heap heap natural
  · exact granted_arena known fits natural room

/-- That a call was put on record changes neither storages nor allocators, so a grant remains one.
-/
theorem Granted.record {memory after : Memory} {id : AllocatorId} {size : Int} {extent : Extent}
    (granted : Granted memory id size extent after) (call : AllocatorCall) :
    Granted memory id size extent (after.record call) := by
  have recorded := changesWithin_record extent.Covers after call
  exact ⟨granted.size_eq, granted.changed.trans recorded fun _ _ _ also => also,
    recorded.holds granted.holds, granted.fresh, granted.taken, granted.zeros, granted.others⟩

theorem granted_of_allocate {memory after : Memory} {id : AllocatorId} {size : Int}
    {extent : Extent} (fits : memory.Fits id)
    (supplied : allocate id size memory = .ok extent after) :
    Granted memory id size extent after := by
  unfold allocate at supplied
  split at supplied
  · rename_i granted
    cases supplied
    exact (granted_of_grant fits granted).record _
  · cases supplied

theorem grant_error {memory after : Memory} {id : AllocatorId} {size : Int} {fault : Fault}
    (refused : memory.grant id size = (.error fault, after)) : after = memory := by
  unfold grant at refused
  grind

/-- A request that is not met leaves a record and nothing else. -/
theorem allocate_error {memory after : Memory} {id : AllocatorId} {size : Int} {fault : Fault}
    (refused : allocate id size memory = .error fault after) :
    after = memory.record (.allocate id size none) := by
  unfold allocate at refused
  split at refused
  · cases refused
  · rename_i denied
    cases refused
    rw [grant_error denied]

/-- A size that is not negative is refused for want of memory only. -/
theorem shortage_of_allocate {memory after : Memory} {id : AllocatorId} {size : Int}
    {fault : Fault} (natural : 0 ≤ size) (refused : allocate id size memory = .error fault after) :
    fault.IsShortage = true := by
  have short : ∀ between, memory.grant id size = (.error fault, between) →
      fault.IsShortage = true := by
    intro between denied
    unfold grant at denied
    rw [if_neg (Int.not_lt.mpr natural)] at denied
    split at denied
    · split at denied
      · cases denied
        rfl
      · split at denied <;> cases denied
        rfl
    · split at denied
      · cases denied
        rfl
      · rw [if_neg (Int.not_lt.mpr natural)] at denied
        split at denied <;> cases denied
        rfl
  unfold allocate at refused
  split at refused
  · cases refused
  · rename_i denied
    cases refused
    exact short _ denied

/-- The heap hands out a storage of its own for each block that the machine has. -/
theorem allocate_heap {memory : Memory} {id : AllocatorId} (heap : memory.allocator id = .heap)
    (size : Nat) :
    allocate id size memory =
      if memory.machine.Has size then
        .ok ⟨(memory.addStorage (Storage.zeros size)).1, 0, size⟩
          ((memory.addStorage (Storage.zeros size)).2.record
            (.allocate id size (some ⟨(memory.addStorage (Storage.zeros size)).1, 0, size⟩)))
      else
        .error (if maxSize < (size : Int) then .sizeOverflow else .heapExhausted size)
          (memory.record (.allocate id size none)) := by
  have natural : ¬(size : Int) < 0 := Int.not_lt.mpr (Int.natCast_nonneg size)
  unfold allocate grant lacks
  simp only [heap, natural, ↓reduceIte]
  rw [show (if (size : Int) > maxSize then _ else _) = _ from
    memory.machine.ite_has size _ _ _]
  by_cases has : memory.machine.Has size
  · rw [if_pos has, if_pos has]
    rfl
  · rw [if_neg has, if_neg has]
    by_cases huge : maxSize < (size : Int)
    · rw [if_pos huge, if_pos huge]
    · rw [if_neg huge, if_neg huge]

/-- A storage without an allocator is refused for want of memory only. -/
theorem newStorage_cases (size : Int) (memory : Memory) :
    (∃ fault, newStorage size memory = .error fault memory ∧ fault.IsShortage = true) ∨
    newStorage size memory = .ok (memory.addStorage (Storage.zeros size.toNat)).1
      (memory.addStorage (Storage.zeros size.toNat)).2 := by
  unfold newStorage
  split
  · exact .inl ⟨_, rfl, rfl⟩
  · split
    · exact .inl ⟨_, rfl, rfl⟩
    · exact .inr rfl

theorem newArena_cases {capacity : Int} (natural : ¬capacity < 0) (memory : Memory) :
    (∃ fault, newArena capacity memory = .error fault memory ∧ fault.IsShortage = true) ∨
    newArena capacity memory = .ok ⟨memory.allocators.size⟩
      ((memory.addStorage (Storage.zeros capacity.toNat)).2.addAllocator
        (.arena ⟨some ⟨(memory.addStorage (Storage.zeros capacity.toNat)).1, 0, capacity.toNat⟩,
          0⟩)).2 := by
  rcases newStorage_cases capacity memory with ⟨fault, refused, short⟩ | supplied
  · refine .inl ⟨fault, ?_, short⟩
    simp only [newArena, Running.run_bind, if_neg natural, refused]
  · refine .inr ?_
    simp only [newArena, Running.run_bind, if_neg natural, supplied]
    rfl

namespace Granted

variable {memory after : Memory} {id : AllocatorId} {size : Int} {extent : Extent}

theorem disjoint {other : Extent} (granted : Granted memory id size extent after)
    (settled : memory.Settled id other) : other.Disjoint extent := by
  intro storage index covered also
  rcases granted.fresh storage index also with new | remains
  · obtain ⟨rfl, -⟩ := covered
    exact Nat.not_le_of_lt settled.holds.storage_lt new
  · exact settled.taken storage index covered remains

theorem byte_eq_zero (granted : Granted memory id size extent after) {place : Nat}
    (inside : place < extent.size) :
    (after.storage extent.storage).byte (extent.start + place) = 0 := by
  have held : place < (after.read extent).length := by
    rw [granted.zeros, List.length_replicate]
    exact inside
  have same := Storage.getElem_read held
  rw [← same]
  exact (List.getElem_of_eq granted.zeros held).trans (List.getElem_replicate _)

theorem settled (granted : Granted memory id size extent after) : after.Settled id extent :=
  ⟨granted.holds, granted.taken⟩

theorem read_eq {other : Extent} (granted : Granted memory id size extent after)
    (settled : memory.Settled id other) : after.read other = memory.read other :=
  granted.changed.read_eq settled.holds (granted.disjoint settled)

end Granted

/-! ## Memories with one allocator -/

def ofHeap (machine : Machine := .unlimited) : Memory :=
  ⟨#[], #[.heap], [], machine⟩

def ofArena (size used : Nat) (machine : Machine := .unlimited) : Memory :=
  ⟨#[Storage.zeros size], #[.arena ⟨some ⟨⟨0⟩, 0, size⟩, used⟩], [], machine⟩

/-- A heap is always in a good state; only an arena can count more in use than its region has. -/
theorem fits_of_heap {memory : Memory} {id : AllocatorId} (heap : memory.allocator id = .heap) :
    memory.Fits id := by
  intro region used known
  rw [heap] at known
  cases known

theorem fits_ofArena {size used : Nat} (inside : used ≤ size) (machine : Machine) :
    (ofArena size used machine).Fits ⟨0⟩ := by
  intro region much known
  cases known
  exact ⟨⟨Nat.one_pos, by simp [ofArena, storage, Extent.stop]⟩, inside⟩

end Memory

end LexKit
