import LexKit.Proofs.Memory.Allocation

/-!
# The record of calls

The calls that an allocator received, read as the extents it handed out and the blocks it got back.
Of one allocator, extents of at least one byte that are handed out one after the other are never
the same: a heap goes on to new storages, and an arena to later bytes of its region.
-/

set_option autoImplicit false

namespace LexKit

namespace AllocatorCall

def allocator : AllocatorCall → AllocatorId
  | .allocate id _ _ => id
  | .free id _ _ => id

def obtained? : AllocatorCall → Option Extent
  | .allocate _ _ result => result
  | .free .. => none

def returned? : AllocatorCall → Option Block
  | .allocate .. => none
  | .free _ block _ => some block

end AllocatorCall

/-- Between two records, calls were made to one allocator. They obtained some extents and gave some
blocks back, each in the order of the lists. -/
def Called (id : AllocatorId) (earlier later : List AllocatorCall) (obtained : List Extent)
    (returned : List Block) : Prop :=
  ∃ made : List AllocatorCall, later = made.reverse ++ earlier ∧
    (∀ call ∈ made, call.allocator = id) ∧ made.filterMap AllocatorCall.obtained? = obtained ∧
    made.filterMap AllocatorCall.returned? = returned

namespace Called

variable {id : AllocatorId} {first second third : List AllocatorCall}
  {obtained others : List Extent} {returned further : List Block}

theorem refl (id : AllocatorId) (calls : List AllocatorCall) : Called id calls calls [] [] :=
  ⟨[], rfl, by simp, rfl, rfl⟩

/-- The calls of two stretches of a run, one behind the other, with what each obtained and returned
in order. -/
theorem trans (left : Called id first second obtained returned)
    (right : Called id second third others further) :
    Called id first third (obtained ++ others) (returned ++ further) := by
  obtain ⟨made, rfl, own, rfl, rfl⟩ := left
  obtain ⟨more, rfl, also, rfl, rfl⟩ := right
  refine ⟨made ++ more, by simp, ?_, List.filterMap_append, List.filterMap_append⟩
  intro call member
  rcases List.mem_append.mp member with member | member
  · exact own call member
  · exact also call member

theorem granted (calls : List AllocatorCall) (size : Int) (extent : Extent) :
    Called id calls (.allocate id size (some extent) :: calls) [extent] [] :=
  ⟨[.allocate id size (some extent)], rfl, by simp [AllocatorCall.allocator], rfl, rfl⟩

theorem refused (calls : List AllocatorCall) (size : Int) :
    Called id calls (.allocate id size none :: calls) [] [] :=
  ⟨[.allocate id size none], rfl, by simp [AllocatorCall.allocator], rfl, rfl⟩

theorem freed (calls : List AllocatorCall) (block : Block) (taken : Bool) :
    Called id calls (.free id block taken :: calls) [] [block] :=
  ⟨[.free id block taken], rfl, by simp [AllocatorCall.allocator], rfl, rfl⟩

end Called

namespace Memory

variable {memory after : Memory} {id : AllocatorId} {size : Int} {extent : Extent}

/-! ## Requests -/

theorem allocate_ok_cases (supplied : allocate id size memory = .ok extent after) :
    (memory.allocator id = .heap ∧ extent = ⟨⟨memory.storages.size⟩, 0, size.toNat⟩ ∧
      after = (memory.addStorage (Storage.zeros size.toNat)).2.record
        (.allocate id size (some extent))) ∨
    ∃ region used, memory.allocator id = .arena ⟨some region, used⟩ ∧ 0 ≤ size ∧
      (used : Int) + size ≤ region.size ∧
      extent = ⟨region.storage, region.start + used, size.toNat⟩ ∧
      after = ((memory.updateStorage region.storage
        (·.zero (region.start + used) size.toNat)).setAllocator id
          (.arena ⟨some region, used + size.toNat⟩)).record
            (.allocate id size (some extent)) := by
  unfold allocate at supplied
  split at supplied
  · rename_i extent between granted
    cases supplied
    rcases grant_ok_cases granted with
      ⟨heap, -, same, rfl⟩ | ⟨region, used, known, natural, room, same, rfl⟩
    · exact .inl ⟨heap, same, rfl⟩
    · exact .inr ⟨region, used, known, natural, room, same, rfl⟩
  · cases supplied

theorem allocate_arena {region : Extent} {used : Nat}
    (known : memory.allocator id = .arena ⟨some region, used⟩) (size : Nat) :
    if used + size ≤ region.size then
      ∃ extent after, allocate id size memory = .ok extent after ∧
        after.allocator id = .arena ⟨some region, used + size⟩
    else
      allocate id size memory =
        .error (.arenaExhausted size ((region.size : Int) - used) region.size)
          (memory.record (.allocate id size none)) := by
  have natural : ¬(size : Int) < 0 := Int.not_lt.mpr (Int.natCast_nonneg size)
  split
  · rename_i room
    have granted := grant_arena known natural (by omega)
    refine ⟨_, _, by rw [allocate, granted], ?_⟩
    rw [allocator_record, allocator_setAllocator_self (by exact known)]
    rfl
  · rename_i short
    have beyond : (used : Int) + size > region.size := by omega
    simp only [allocate, grant, known, natural, beyond, ↓reduceIte]
    rfl

theorem size_of_allocate (supplied : allocate id size memory = .ok extent after) :
    extent.size = size.toNat := by
  rcases allocate_ok_cases supplied with ⟨-, rfl, -⟩ | ⟨region, used, -, -, -, rfl, -⟩ <;> rfl

theorem calls_of_allocate (supplied : allocate id size memory = .ok extent after) :
    after.calls = .allocate id size (some extent) :: memory.calls := by
  rcases allocate_ok_cases supplied with ⟨-, -, rfl⟩ | ⟨region, used, -, -, -, -, rfl⟩ <;> rfl

/-! ## Extents that are still to come -/

/-- The extent is not one that the allocator can have handed out already: its storage does not exist
yet, or it begins behind what the arena has used. -/
def Ahead (memory : Memory) (id : AllocatorId) (extent : Extent) : Prop :=
  match memory.allocator id with
  | .heap => memory.storages.size ≤ extent.storage.index
  | .arena ⟨none, _⟩ => True
  | .arena ⟨some region, used⟩ => region.start + used ≤ extent.start

theorem ahead_heap (heap : memory.allocator id = .heap) :
    memory.Ahead id extent ↔ memory.storages.size ≤ extent.storage.index := by
  simp [Ahead, heap]

theorem ahead_arena {region : Extent} {used : Nat}
    (known : memory.allocator id = .arena ⟨some region, used⟩) :
    memory.Ahead id extent ↔ region.start + used ≤ extent.start := by
  simp [Ahead, known]

@[simp]
theorem ahead_record (memory : Memory) (call : AllocatorCall) (id : AllocatorId) (extent : Extent) :
    (memory.record call).Ahead id extent ↔ memory.Ahead id extent :=
  Iff.rfl

@[simp]
theorem ahead_write (memory : Memory) (storage : StorageId) (start : Nat) (bytes : Bytes)
    (id : AllocatorId) (extent : Extent) :
    (memory.write storage start bytes).Ahead id extent ↔ memory.Ahead id extent := by
  simp only [Ahead, write, size_storages_updateStorage]
  rfl

/-- What comes after a request lies ahead of it, too, and is not what the request obtained. -/
theorem ahead_of_allocate (positive : 0 < size)
    (supplied : allocate id size memory = .ok extent after) :
    memory.Ahead id extent ∧
      ∀ later, after.Ahead id later → memory.Ahead id later ∧ later ≠ extent := by
  rcases allocate_ok_cases supplied with ⟨heap, rfl, rfl⟩ |
    ⟨region, used, known, natural, room, rfl, rfl⟩
  · refine ⟨(ahead_heap heap).mpr (Nat.le_refl _), ?_⟩
    intro later ahead
    rw [ahead_record, ahead_heap (by exact heap), size_storages_addStorage] at ahead
    refine ⟨(ahead_heap heap).mpr (Nat.le_of_succ_le ahead), ?_⟩
    rintro rfl
    exact Nat.not_succ_le_self _ ahead
  · refine ⟨(ahead_arena known).mpr (Nat.le_refl _), ?_⟩
    intro later ahead
    rw [ahead_record, ahead_arena (allocator_setAllocator_self (by exact known) _)] at ahead
    refine ⟨(ahead_arena known).mpr (by omega), ?_⟩
    rintro rfl
    dsimp only at ahead
    omega

/-! ## Blocks given back -/

def returning (id : AllocatorId) (extents : List Extent) (memory : Memory) : Memory :=
  extents.foldl (fun (memory : Memory) extent =>
    memory.record (.free id (Block.ofExtent extent)
      (memory.takesBack id (Block.ofExtent extent)))) memory

theorem returning_append (id : AllocatorId) (first second : List Extent) (memory : Memory) :
    memory.returning id (first ++ second) = (memory.returning id first).returning id second :=
  List.foldl_append

theorem called_returning (id : AllocatorId) (extents : List Extent) (memory : Memory) :
    Called id memory.calls (returning id extents memory).calls []
      (extents.map Block.ofExtent) := by
  induction extents generalizing memory with
  | nil => exact .refl id memory.calls
  | cons extent rest ih => exact (Called.freed memory.calls _ _).trans (ih _)

@[simp]
theorem allocator_returning (id : AllocatorId) (extents : List Extent) (memory : Memory)
    (other : AllocatorId) : (returning id extents memory).allocator other =
      memory.allocator other := by
  induction extents generalizing memory with
  | nil => rfl
  | cons extent rest ih => exact ih _

end Memory

end LexKit
