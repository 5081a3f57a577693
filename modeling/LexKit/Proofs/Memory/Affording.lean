import LexKit.Proofs.Memory.Calls
import Mathlib.Algebra.GroupWithZero.Nat

/-!
# What an allocator affords

An allocator has enough room for blocks that are obtained one after the other: the heap has what the
machine supplies at each of these requests, an open arena looks at the sum of the sizes, and a
closed arena supplies nothing. Blocks of no bytes are never asked for.
-/

set_option autoImplicit false

namespace LexKit

namespace Machine

variable {machine : Machine} {size : Nat} {first second rest sizes : List Nat}

/-- Requests for the given sizes are met one after the other. A block of no bytes is no request. -/
def supplies (machine : Machine) : List Nat → Bool
  | [] => true
  | size :: rest =>
      if size = 0 then machine.supplies rest
      else decide (machine.Has size) && machine.next.supplies rest

@[simp]
theorem supplies_nil : machine.supplies [] = true := by
  rw [supplies]

@[simp]
theorem supplies_zero_cons : machine.supplies (0 :: rest) = machine.supplies rest := by
  rw [supplies, if_pos rfl]

theorem supplies_cons (positive : 0 < size) :
    machine.supplies (size :: rest) = true ↔
      machine.Has size ∧ machine.next.supplies rest = true := by
  rw [supplies, if_neg (Nat.ne_of_gt positive)]
  simp only [Bool.and_eq_true, decide_eq_true_eq]

/-- What is supplied does not depend on what would be asked for later. -/
theorem supplies_left (supplied : machine.supplies (first ++ second) = true) :
    machine.supplies first = true := by
  induction first generalizing machine with
  | nil => exact supplies_nil
  | cons size rest ih =>
      rw [List.cons_append] at supplied
      rcases Nat.eq_zero_or_pos size with rfl | positive
      · rw [supplies_zero_cons] at supplied ⊢
        exact ih supplied
      · rw [supplies_cons positive] at supplied ⊢
        exact ⟨supplied.1, ih supplied.2⟩

/-- No machine supplies more than it can count. -/
theorem le_maxSize_of_supplies (supplied : machine.supplies sizes = true) :
    ∀ size ∈ sizes, (size : Int) ≤ maxSize := by
  induction sizes generalizing machine with
  | nil => simp
  | cons size rest ih =>
      rcases Nat.eq_zero_or_pos size with rfl | positive
      · rw [supplies_zero_cons] at supplied
        exact List.forall_mem_cons.mpr ⟨by decide, ih supplied⟩
      · obtain ⟨⟨countable, -⟩, others⟩ := (supplies_cons positive).mp supplied
        exact List.forall_mem_cons.mpr ⟨countable, ih others⟩

theorem unlimited_supplies (countable : ∀ size ∈ sizes, (size : Int) ≤ maxSize) :
    unlimited.supplies sizes = true := by
  induction sizes with
  | nil => exact supplies_nil
  | cons size rest ih =>
      obtain ⟨own, others⟩ := List.forall_mem_cons.mp countable
      rcases Nat.eq_zero_or_pos size with rfl | positive
      · rw [supplies_zero_cons]
        exact ih others
      · exact (supplies_cons positive).mpr ⟨⟨own, rfl⟩, ih others⟩

end Machine

namespace Memory

variable {memory after last : Memory} {id : AllocatorId} {size : Nat} {extent : Extent}
  {first second rest sizes : List Nat}

/-! ## Actions that no allocator hears of -/

/-- The allocators were not called, and are as they were. -/
structure Unasked (memory after : Memory) : Prop where
  calls_eq : after.calls = memory.calls
  allocators_eq : after.allocators = memory.allocators
  machine_eq : after.machine = memory.machine

namespace Unasked

theorem refl (memory : Memory) : Unasked memory memory :=
  ⟨rfl, rfl, rfl⟩

theorem trans (left : Unasked memory after) (right : Unasked after last) : Unasked memory last :=
  ⟨right.calls_eq.trans left.calls_eq, right.allocators_eq.trans left.allocators_eq,
    right.machine_eq.trans left.machine_eq⟩

theorem allocator_eq (unasked : Unasked memory after) (id : AllocatorId) :
    after.allocator id = memory.allocator id := by
  rw [allocator, allocator, unasked.allocators_eq]

end Unasked

/-! ## Room -/

theorem machine_of_allocate {bytes : Int} (supplied : allocate id bytes memory = .ok extent after) :
    after.machine = memory.machine.next := by
  rcases allocate_ok_cases supplied with ⟨-, -, rfl⟩ | ⟨region, used, -, -, -, -, rfl⟩ <;> rfl

/-- There is room for blocks of the given sizes. -/
def Affords (memory : Memory) (id : AllocatorId) (sizes : List Nat) : Prop :=
  match memory.allocator id with
  | .heap => memory.machine.supplies sizes = true
  | .arena ⟨some region, used⟩ => used + sizes.sum ≤ region.size
  | .arena ⟨none, _⟩ => ∀ size ∈ sizes, size = 0

/-- What there is room for depends on the allocator and the machine. -/
theorem affords_congr (allocator : after.allocator id = memory.allocator id)
    (machine : after.machine = memory.machine) :
    after.Affords id sizes ↔ memory.Affords id sizes := by
  unfold Affords
  rw [allocator, machine]

theorem Unasked.affords_iff (unasked : Unasked memory after) (id : AllocatorId)
    (sizes : List Nat) : after.Affords id sizes ↔ memory.Affords id sizes :=
  affords_congr (unasked.allocator_eq id) unasked.machine_eq

theorem affords_heap (heap : memory.allocator id = .heap) :
    memory.Affords id sizes ↔ memory.machine.supplies sizes = true := by
  simp [Affords, heap]

theorem affords_arena {region : Extent} {used : Nat}
    (known : memory.allocator id = .arena ⟨some region, used⟩) :
    memory.Affords id sizes ↔ used + sizes.sum ≤ region.size := by
  simp [Affords, known]

theorem affords_closed {used : Nat} (known : memory.allocator id = .arena ⟨none, used⟩) :
    memory.Affords id sizes ↔ ∀ size ∈ sizes, size = 0 := by
  simp [Affords, known]

instance (memory : Memory) (id : AllocatorId) (sizes : List Nat) :
    Decidable (memory.Affords id sizes) :=
  match known : memory.allocator id with
  | .heap => decidable_of_iff _ (affords_heap known).symm
  | .arena ⟨some _, _⟩ => decidable_of_iff _ (affords_arena known).symm
  | .arena ⟨none, _⟩ => decidable_of_iff _ (affords_closed known).symm

/-- A heap over a machine that never runs out has room for all that can be counted. -/
theorem affords_of_unlimited (heap : memory.allocator id = .heap)
    (unlimited : memory.machine = .unlimited) (countable : ∀ size ∈ sizes, (size : Int) ≤ maxSize) :
    memory.Affords id sizes := by
  rw [affords_heap heap, unlimited]
  exact Machine.unlimited_supplies countable

@[simp]
theorem affords_zero_cons : memory.Affords id (0 :: rest) ↔ memory.Affords id rest := by
  rcases memory.allocator_cases id with heap | ⟨used, known⟩ | ⟨region, used, known⟩
  · rw [affords_heap heap, affords_heap heap, Machine.supplies_zero_cons]
  · rw [affords_closed known, affords_closed known, List.forall_mem_cons]
    exact and_iff_right rfl
  · rw [affords_arena known, affords_arena known, List.sum_cons, Nat.zero_add]

theorem affords_nil_of_fits (fits : memory.Fits id) : memory.Affords id [] := by
  rcases memory.allocator_cases id with heap | ⟨used, known⟩ | ⟨region, used, known⟩
  · exact (affords_heap heap).mpr Machine.supplies_nil
  · exact (affords_closed known).mpr (List.forall_mem_nil _)
  · exact (affords_arena known).mpr (fits region used known).2

theorem Affords.left (affords : memory.Affords id (first ++ second)) :
    memory.Affords id first := by
  rcases memory.allocator_cases id with heap | ⟨used, known⟩ | ⟨region, used, known⟩
  · exact (affords_heap heap).mpr (Machine.supplies_left ((affords_heap heap).mp affords))
  · have each := (affords_closed known).mp affords
    exact (affords_closed known).mpr fun size member => each size (List.mem_append_left _ member)
  · have total := (affords_arena known).mp affords
    rw [List.sum_append] at total
    exact (affords_arena known).mpr (by omega)

/-- Room for some blocks is room for the first ones of them, since an allocator meets requests in
order. -/
theorem Affords.take (affords : memory.Affords id sizes) (count : Nat) :
    memory.Affords id (sizes.take count) := by
  rw [← List.take_append_drop count sizes] at affords
  exact affords.left

/-- A request for bytes that there is room for is met, and there is room for the others then. -/
theorem allocate_of_affords (positive : 0 < size) (affords : memory.Affords id (size :: rest)) :
    ∃ extent after, allocate id size memory = .ok extent after ∧ after.Affords id rest := by
  rcases memory.allocator_cases id with heap | ⟨used, known⟩ | ⟨region, used, known⟩
  · obtain ⟨own, others⟩ := (Machine.supplies_cons positive).mp ((affords_heap heap).mp affords)
    have supplied := allocate_heap heap size
    rw [if_pos own] at supplied
    refine ⟨_, _, supplied, (affords_heap (by exact heap)).mpr ?_⟩
    rw [machine_of_allocate supplied]
    exact others
  · have nothing := (affords_closed known).mp affords size List.mem_cons_self
    exact absurd nothing (Nat.ne_of_gt positive)
  · have total := (affords_arena known).mp affords
    rw [List.sum_cons] at total
    have supplied := allocate_arena known size
    rw [if_pos (by omega)] at supplied
    obtain ⟨extent, after, supplied, now⟩ := supplied
    exact ⟨extent, after, supplied, (affords_arena now).mpr (by omega)⟩

/-- There was room for what was supplied. -/
theorem affords_of_allocate (supplied : allocate id size memory = .ok extent after) :
    memory.Affords id [size] := by
  rcases allocate_ok_cases supplied with ⟨heap, -, -⟩ | ⟨region, used, known, -, room, -, -⟩
  · refine (affords_heap heap).mpr ?_
    rcases Nat.eq_zero_or_pos size with rfl | positive
    · rw [Machine.supplies_zero_cons, Machine.supplies_nil]
    · refine (Machine.supplies_cons positive).mpr ⟨?_, Machine.supplies_nil⟩
      refine Decidable.byContradiction fun lacking => ?_
      rw [allocate_heap heap, if_neg lacking] at supplied
      cases supplied
  · refine (affords_arena known).mpr ?_
    rw [List.sum_singleton]
    omega

end Memory

end LexKit
