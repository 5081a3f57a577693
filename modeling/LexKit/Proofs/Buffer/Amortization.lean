import LexKit.Proofs.Buffer.Regrowth
import Mathlib.Order.Bounds.Basic

/-!
# The cost of pushing

Values that are pushed one by one onto a fresh buffer without inline storage. The capacities double
from the least one on, so that all blocks together have less than twice the places of the last one.
That many bytes are what an arena has to have left, and what it has in use afterwards.
-/

set_option autoImplicit false

namespace LexKit.Buffer

open Running

variable {id : AllocatorId} {role : BufferRole} {layout : Layout} {inlineCapacity : Int}
  {values : List Value} {memory : Memory} {fresh : Buffer} {steps count : Nat}

theorem grown_zero (steps : Nat) : grown 0 (steps + 1) = leastGrowth * 2 ^ steps := by
  induction steps with
  | zero => rfl
  | succ steps ih =>
      have positive := Nat.two_pow_pos steps
      rw [grown, ih, Nat.pow_succ, leastGrowth]
      omega

/-- The bytes of all blocks that a fresh buffer obtains until it has doubled so many times. -/
def pushingCost (layout : Layout) (steps : Nat) : Nat :=
  layout.size * (2 * (leastGrowth * 2 ^ steps) - leastGrowth)

/-- The blocks of successive growths form a geometric series, so all of them together cost less than
twice the last one. -/
theorem sum_growthSizes (block : fresh.block = none) (steps : Nat) :
    (fresh.growthSizes (steps + 1)).sum = pushingCost fresh.layout steps := by
  have empty : fresh.blockSize / fresh.layout.size = 0 := by
    rw [blockSize_of_no_block block, Nat.zero_div]
  induction steps with
  | zero =>
      rw [growthSizes_succ, empty]
      exact Nat.mul_comm leastGrowth fresh.layout.size
  | succ steps ih =>
      have positive := Nat.two_pow_pos steps
      rw [growthSizes_succ, List.sum_append, ih, empty, List.sum_singleton, grown_zero,
        pushingCost, pushingCost, Nat.pow_succ, Nat.mul_comm _ fresh.layout.size, ← Nat.mul_add,
        leastGrowth]
      congr 1
      omega

/-- Fewer than four elements' bytes are obtained for each value, and one least block. -/
theorem pushingCost_le (least : IsLeast {steps | count ≤ leastGrowth * 2 ^ steps} steps)
    (some_values : 0 < count) : pushingCost layout steps ≤ (4 * count + 4) * layout.size := by
  rw [pushingCost, Nat.mul_comm]
  refine Nat.mul_le_mul_right _ ?_
  cases steps with
  | zero =>
      rw [leastGrowth]
      omega
  | succ steps =>
      have short : ¬count ≤ leastGrowth * 2 ^ steps := fun enough =>
        Nat.not_succ_le_self steps (least.2 enough)
      rw [leastGrowth] at short
      rw [Nat.pow_succ, leastGrowth]
      omega

/-- The number of growths is the least one whose capacity is enough, because a buffer grows only
where the capacity before did not do. -/
theorem isLeast_of_reaches (block : fresh.block = none)
    (reaches : Reaches fresh (steps + 1) count) :
    IsLeast {steps | count ≤ leastGrowth * 2 ^ steps} steps := by
  obtain ⟨enough, needed⟩ := reaches
  rw [blockSize_of_no_block block, Nat.zero_div] at enough needed
  rw [grown_zero] at enough
  refine ⟨enough, fun other also => Nat.le_of_not_lt fun before => ?_⟩
  have short := needed (other + 1) (Nat.succ_lt_succ before)
  rw [grown_zero] at short
  exact Nat.not_lt.mpr also short

/-- What pushing `count` values comes to, one at least, where so many doublings are needed. -/
structure Amortized (id : AllocatorId) (layout : Layout) (memory : Memory) (count steps : Nat)
    (result : EStateM.Result Fault BufferState Unit) : Prop where
  /-- It succeeds if and only if the allocator affords all blocks, and runs short otherwise. -/
  succeeds_iff : (∃ state, result = .ok () state) ↔ memory.Affords id
    ((List.range (steps + 1)).map fun step => leastGrowth * 2 ^ step * layout.size)
  short : ∀ cause state, result = .error cause state → cause.IsShortage = true
  pushed : ∀ state, result = .ok () state →
    state.buffer.count = count ∧ state.buffer.capacity = .ok (leastGrowth * 2 ^ steps)
  called : ∀ state, result = .ok () state → ∃ blocks : List Extent,
    blocks.reverse.map Extent.size =
        (List.range (steps + 1)).map (fun step => leastGrowth * 2 ^ step * layout.size) ∧
      state.memory.calls = growthCalls id blocks ++ memory.calls
  over_arena : ∀ region used, memory.allocator id = .arena ⟨some region, used⟩ →
    ((∃ state, result = .ok () state) ↔ used + pushingCost layout steps ≤ region.size) ∧
      ∀ state, result = .ok () state →
        state.memory.allocator id = .arena ⟨some region, used + pushingCost layout steps⟩
  cost_le : pushingCost layout steps ≤ (4 * count + 4) * layout.size

private theorem growthSizes_of_no_block (block : fresh.block = none) (steps : Nat) :
    fresh.growthSizes steps =
      (List.range steps).map fun step => leastGrowth * 2 ^ step * fresh.layout.size := by
  unfold growthSizes
  rw [blockSize_of_no_block block, Nat.zero_div]
  exact List.map_congr_left fun step _ => by rw [grown_zero]

private theorem affords_growths_iff {region : Extent} {used : Nat} (block : fresh.block = none)
    (known : memory.allocator fresh.allocator = .arena ⟨some region, used⟩) (steps : Nat) :
    memory.Affords fresh.allocator (fresh.growthSizes (steps + 1)) ↔
      used + pushingCost fresh.layout steps ≤ region.size := by
  rw [Memory.affords_arena known, sum_growthSizes block]

private theorem amortized_of_done {state : BufferState} {blocks : List Extent}
    (block : fresh.block = none) (sized : 0 < fresh.layout.size)
    (reaches : Reaches fresh (steps + 1) count) (some_values : 0 < count)
    (regrown : Regrown fresh memory blocks state.buffer state.memory)
    (reached : Reaches fresh blocks.length count) (count_eq : state.buffer.count = count) :
    Amortized fresh.allocator fresh.layout memory count steps (.ok () state) := by
  have length := reached.steps_eq reaches
  have sizes := growthSizes_of_no_block block (steps + 1)
  have affords := regrown.affords (List.ne_nil_of_length_eq_add_one length)
  have capacity := regrown.capacity_eq sized
  rw [length] at affords
  rw [length, blockSize_of_no_block block, Nat.zero_div, grown_zero] at capacity
  have layout := regrown.make.layout_eq
  refine ⟨⟨fun _ => sizes ▸ affords, fun _ => ⟨state, rfl⟩⟩, ?_, ?_, ?_, ?_,
    pushingCost_le (isLeast_of_reaches block reaches) some_values⟩
  · intro cause other failed
    cases failed
  · rintro other same
    cases same
    refine ⟨count_eq, ?_⟩
    rw [Buffer.capacity_eq (by rw [layout]; exact sized), capacity]
  · rintro other same
    cases same
    refine ⟨blocks, ?_, regrown.calls_eq⟩
    rw [List.map_reverse, regrown.sizes_eq, List.reverse_reverse, length, sizes]
  · intro region used known
    refine ⟨⟨fun _ => (affords_growths_iff block known steps).mp affords,
      fun _ => ⟨state, rfl⟩⟩, ?_⟩
    rintro other same
    cases same
    rw [regrown.spent, known, length, sum_growthSizes block]
    rfl

private theorem amortized_of_refused {cause : Fault} {state : BufferState}
    (block : fresh.block = none) (reaches : Reaches fresh (steps + 1) count)
    (some_values : 0 < count) (short : cause.IsShortage = true)
    (scarce : ¬memory.Affords fresh.allocator (fresh.growthSizes (steps + 1))) :
    Amortized fresh.allocator fresh.layout memory count steps (.error cause state) := by
  have sizes := growthSizes_of_no_block block (steps + 1)
  refine ⟨⟨?_, fun affords => absurd affords (sizes ▸ scarce)⟩, ?_, ?_, ?_, ?_,
    pushingCost_le (isLeast_of_reaches block reaches) some_values⟩
  · rintro ⟨other, same⟩
    cases same
  · intro other left failed
    cases failed
    exact short
  · intro other same
    cases same
  · intro other same
    cases same
  · intro region used known
    refine ⟨⟨?_, fun enough => absurd ((affords_growths_iff block known steps).mpr enough) scarce⟩,
      fun other same => by cases same⟩
    rintro ⟨other, same⟩
    cases same

private theorem amortized_of_extended {result : EStateM.Result Fault BufferState Unit}
    (block : fresh.block = none) (sized : 0 < fresh.layout.size)
    (taken : ∀ value ∈ values, (fresh.layout.kept? value).isSome = true)
    (reaches : Reaches fresh (steps + 1) count) (some_values : 0 < count)
    (extended : Extended fresh memory values count result) :
    Amortized fresh.allocator fresh.layout memory count steps result := by
  cases extended with
  | done regrown reached count_eq _ =>
      exact amortized_of_done block sized reaches some_values regrown reached count_eq
  | rejected regrown reached count_lt value member untaken =>
      have took := taken value member
      rw [untaken] at took
      cases took
  | @refused cause state blocks between regrown memory_eq full denied short =>
      have before : blocks.length + 1 ≤ steps + 1 := Nat.lt_of_not_le fun behind =>
        Nat.not_lt.mpr reaches.enough
          (Nat.lt_of_le_of_lt ((grown_strictMono _).monotone behind) full)
      obtain ⟨rest, split⟩ := growthSizes_split fresh before
      refine amortized_of_refused block reaches some_values short fun affords => denied ?_
      rw [split] at affords
      exact affords.left

/-- Of any layout whose elements have a size, and of any number of values that its items take. -/
theorem amortized_of_fresh (outside : inlineCapacity ≤ 0) (sized : 0 < layout.size)
    (taken : ∀ value ∈ values, (layout.kept? value).isSome = true) (memory : Memory) :
    ∃ fresh, create id role layout inlineCapacity memory = .ok fresh memory ∧
      (values = [] → fresh.capacity = .ok 0 ∧
        BufferM.extend values ⟨fresh, memory⟩ = .ok () ⟨fresh, memory⟩) ∧
      (values ≠ [] → ∃ steps,
        IsLeast {steps | values.length ≤ leastGrowth * 2 ^ steps} steps ∧
          Amortized id layout memory values.length steps
            (BufferM.extend values ⟨fresh, memory⟩)) := by
  refine ⟨⟨id, role, layout, inlineCapacity, 0, none, false⟩, ?_, ?_, ?_⟩
  · rw [create, if_neg (Int.not_lt.mpr outside)]
    rfl
  · rintro rfl
    exact ⟨by rw [Buffer.capacity_eq sized, blockSize, Nat.zero_div], rfl⟩
  · intro some_values
    have positive := List.length_pos_iff.mpr some_values
    have extended := @extended_extend ⟨id, role, layout, inlineCapacity, 0, none, false⟩ memory
      rfl sized (Nat.zero_le _) values
    rw [Layout.tried_eq_length taken, Nat.zero_add] at extended
    obtain ⟨growths, reaches⟩ :=
      exists_reaches ⟨id, role, layout, inlineCapacity, 0, none, false⟩ values.length
    cases growths with
    | zero =>
        have enough := reaches.enough
        rw [blockSize, Nat.zero_div] at enough
        exact absurd positive (Nat.not_lt.mpr enough)
    | succ steps =>
        exact ⟨steps, isLeast_of_reaches rfl reaches,
          amortized_of_extended rfl sized taken reaches positive extended⟩

/-- Nine bytes use up an arena of 24. -/
theorem amortized_of_fresh_nine :
    ∃ fresh state, create ⟨0⟩ .items Layout.byteLayout 0 (final (Memory.newArena 24 .empty)) =
        .ok fresh (final (Memory.newArena 24 .empty)) ∧
      BufferM.extend (List.replicate 9 (.int 7)) ⟨fresh, final (Memory.newArena 24 .empty)⟩ =
        .ok () state ∧
      state.buffer.capacity = .ok 16 ∧
      state.memory.allocator ⟨0⟩ = .arena ⟨some ⟨⟨0⟩, 0, 24⟩, 24⟩ := by
  obtain ⟨fresh, created, -, pushed⟩ := @amortized_of_fresh ⟨0⟩ .items Layout.byteLayout 0
    (List.replicate 9 (.int 7)) (by decide) (by decide) (by decide +kernel)
    (final (Memory.newArena 24 .empty))
  obtain ⟨steps, least, amortized⟩ := pushed (by decide)
  obtain rfl : steps = 1 := by
    refine Nat.le_antisymm (least.2 (by decide)) (Nat.pos_of_ne_zero ?_)
    rintro rfl
    exact absurd least.1 (by decide)
  obtain ⟨succeeds_iff, spent⟩ :=
    amortized.over_arena ⟨⟨0⟩, 0, 24⟩ 0 (by decide +kernel)
  obtain ⟨state, ran⟩ := succeeds_iff.mpr (by decide)
  exact ⟨fresh, state, created, ran, (amortized.pushed state ran).2, spent state ran⟩

end LexKit.Buffer
