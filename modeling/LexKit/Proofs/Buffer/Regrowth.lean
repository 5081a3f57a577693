import LexKit.Proofs.Buffer.Doubling
import LexKit.Proofs.Buffer.Trading
import LexKit.Proofs.Memory.Spending

/-!
# Growth after growth

A buffer that is pushed to moves from block to block, each obtained before the one in front of it is
given back. `Regrown` says how far a buffer has come that began without an allocated block: which
blocks it obtained, what was called for them, and what its allocator has spent. A push keeps it, and
so does an extension, which ends at the first value that the item rejects or at the first block that
the allocator refuses.
-/

set_option autoImplicit false

namespace LexKit

/-- How many values of a list are looked at: those up to the first one that the item rejects, which
is among them. -/
def Layout.tried (layout : Layout) : List Value → Nat
  | [] => 0
  | value :: rest => if (layout.kept? value).isSome then layout.tried rest + 1 else 1

theorem Layout.tried_eq_length {layout : Layout} {values : List Value}
    (taken : ∀ value ∈ values, (layout.kept? value).isSome = true) :
    layout.tried values = values.length := by
  induction values with
  | nil => rfl
  | cons value rest ih =>
      rw [tried, if_pos (taken value List.mem_cons_self), List.length_cons,
        ih fun other member => taken other (List.mem_cons_of_mem value member)]

namespace Buffer

open Running

variable {first buffer roomy : Buffer} {base memory after between : Memory} {value : Value}
  {values : List Value} {blocks : List Extent} {extent : Extent}

/-! ## Capacities, sizes and calls -/

def grown (capacity : Nat) : Nat → Nat
  | 0 => capacity
  | steps + 1 => max leastGrowth (2 * grown capacity steps)

theorem grown_lt_succ (capacity steps : Nat) :
    grown capacity steps < grown capacity (steps + 1) := by
  rw [grown, leastGrowth]
  omega

theorem grown_strictMono (capacity : Nat) : StrictMono (grown capacity) :=
  strictMono_nat_of_lt_succ (grown_lt_succ capacity)

def growthSizes (first : Buffer) (steps : Nat) : List Nat :=
  (List.range steps).map fun step =>
    grown (first.blockSize / first.layout.size) (step + 1) * first.layout.size

theorem growthSizes_succ (first : Buffer) (steps : Nat) :
    first.growthSizes (steps + 1) = first.growthSizes steps ++
      [grown (first.blockSize / first.layout.size) (steps + 1) * first.layout.size] := by
  rw [growthSizes, List.range_succ, List.map_append]
  rfl

theorem growthSizes_split (first : Buffer) {fewer steps : Nat} (before : fewer ≤ steps) :
    ∃ rest, first.growthSizes steps = first.growthSizes fewer ++ rest := by
  induction before with
  | refl => exact ⟨[], (List.append_nil _).symm⟩
  | step _ ih =>
      obtain ⟨rest, split⟩ := ih
      exact ⟨rest ++ [_], by rw [growthSizes_succ, split, List.append_assoc]⟩

/-- The calls of a buffer that moved to these blocks, the last one first. Each block but the first
one is obtained before the one in front of it is given back. -/
def growthCalls (id : AllocatorId) : List Extent → List AllocatorCall
  | [] => []
  | [block] => [.allocate id block.size (some block)]
  | block :: old :: rest =>
      .free id (.ofExtent old) true :: .allocate id block.size (some block) ::
        growthCalls id (old :: rest)

/-! ## Moving to a block -/

theorem allocators_relocated (buffer : Buffer) (extent : Extent) (memory : Memory) :
    (buffer.relocated extent memory).allocators = memory.allocators := by
  unfold relocated
  cases buffer.block with
  | none => rfl
  | some old => cases buffer.isInline <;> rfl

/-- Giving the old block back is no request. -/
theorem machine_relocated (buffer : Buffer) (extent : Extent) (memory : Memory) :
    (buffer.relocated extent memory).machine = memory.machine := by
  unfold relocated
  cases buffer.block with
  | none => rfl
  | some old => cases buffer.isInline <;> rfl

theorem owned?_eq_none_iff :
    buffer.owned? = none ↔ buffer.block = none ∨ buffer.isInline = true := by
  unfold owned?
  cases buffer.isInline <;> simp

/-- A block that no allocator supplied is not given back. -/
theorem calls_relocated_of_unowned (unowned : buffer.owned? = none) (extent : Extent)
    (memory : Memory) : (buffer.relocated extent memory).calls = memory.calls := by
  unfold relocated
  rcases owned?_eq_none_iff.mp unowned with absent | inline
  · rw [absent]
  · rw [inline]
    cases buffer.block <;> rfl

theorem calls_relocated_of_block {old : Extent} (block : buffer.block = some old)
    (allocated : buffer.isInline = false) (extent : Extent) (memory : Memory) :
    (buffer.relocated extent memory).calls =
      .free buffer.allocator (.ofExtent old)
        (memory.takesBack buffer.allocator (.ofExtent old)) :: memory.calls := by
  unfold relocated
  rw [block, allocated]
  rfl

/-- `first` in `base` became `buffer` in `memory`. It moved to these blocks, the last one first, and
made no other calls. -/
structure Regrown (first : Buffer) (base : Memory) (blocks : List Extent) (buffer : Buffer)
    (memory : Memory) : Prop where
  make : SameMake first buffer
  block_eq : buffer.block = blocks.head?.or first.block
  isInline_eq : buffer.isInline = (blocks.isEmpty && first.isInline)
  sizes_eq : blocks.map Extent.size = (first.growthSizes blocks.length).reverse
  calls_eq : memory.calls = growthCalls first.allocator blocks ++ base.calls
  affords_iff : ∀ more, memory.Affords first.allocator more ↔
    base.Affords first.allocator (first.growthSizes blocks.length ++ more)
  affords : blocks ≠ [] → base.Affords first.allocator (first.growthSizes blocks.length)
  spent : memory.allocator first.allocator =
    (base.allocator first.allocator).spend (first.growthSizes blocks.length).sum
  taken : ∀ block ∈ blocks.head?, memory.takesBack first.allocator (.ofExtent block) = true

namespace Regrown

theorem refl (first : Buffer) (base : Memory) : Regrown first base [] first base := by
  refine ⟨.refl first, rfl, rfl, rfl, rfl, fun _ => Iff.rfl, fun none_yet => absurd rfl none_yet,
    (Allocator.spend_zero _).symm, ?_⟩
  intro block absent
  cases absent

theorem recount (regrown : Regrown first base blocks buffer memory) (count : Nat) :
    Regrown first base blocks { buffer with count } memory :=
  ⟨⟨regrown.make.allocator_eq, regrown.make.role_eq, regrown.make.layout_eq,
    regrown.make.inlineCapacity_eq⟩, regrown.block_eq, regrown.isInline_eq, regrown.sizes_eq,
    regrown.calls_eq, regrown.affords_iff, regrown.affords, regrown.spent, regrown.taken⟩

theorem unasked (regrown : Regrown first base blocks buffer memory)
    (unasked : memory.Unasked after) : Regrown first base blocks buffer after := by
  have same := unasked.allocator_eq first.allocator
  refine ⟨regrown.make, regrown.block_eq, regrown.isInline_eq, regrown.sizes_eq,
    unasked.calls_eq.trans regrown.calls_eq, ?_, regrown.affords, same.trans regrown.spent, ?_⟩
  · exact fun more => (unasked.affords_iff _ more).trans (regrown.affords_iff more)
  · intro block member
    rw [← Allocator.spend_zero (memory.allocator first.allocator)] at same
    rw [Memory.takesBack_of_spend same]
    exact regrown.taken block member

theorem capacity_eq (regrown : Regrown first base blocks buffer memory)
    (sized : 0 < first.layout.size) :
    buffer.blockSize / buffer.layout.size =
      grown (first.blockSize / first.layout.size) blocks.length := by
  rw [regrown.make.layout_eq]
  have block := regrown.block_eq
  cases blocks with
  | nil =>
      rw [blockSize, block]
      rfl
  | cons last rest =>
      have sizes := regrown.sizes_eq
      rw [List.length_cons, growthSizes_succ, List.reverse_append, List.map_cons] at sizes
      obtain ⟨size, -⟩ := List.cons.inj sizes
      rw [blockSize_of_block block, size, List.length_cons, Nat.mul_div_cancel _ sized]

theorem growth_eq (regrown : Regrown first base blocks buffer memory)
    (sized : 0 < first.layout.size) :
    buffer.growth = grown (first.blockSize / first.layout.size) (blocks.length + 1) *
      first.layout.size := by
  rw [growth, regrown.capacity_eq sized, regrown.make.layout_eq]
  rfl

/-- A full buffer moves on to the block that it obtains. -/
theorem grow (regrown : Regrown first base blocks buffer memory) (unowned : first.owned? = none)
    (sized : 0 < first.layout.size)
    (supplied : Memory.allocate buffer.allocator buffer.growth memory = .ok extent after) :
    Regrown first base (extent :: blocks) { buffer with block := some extent, isInline := false }
      (buffer.relocated extent after) := by
  have size := Memory.size_of_allocate supplied
  have request := regrown.growth_eq sized
  have spent := Memory.allocator_of_allocate supplied
  have returned := Memory.takesBack_of_allocate supplied
  have called := Memory.calls_of_allocate supplied
  rw [Int.toNat_natCast] at size spent
  rw [← size] at called
  rw [regrown.make.allocator_eq] at supplied spent returned called
  have unmoved : (buffer.relocated extent after).allocator first.allocator =
      (after.allocator first.allocator).spend 0 := by
    rw [Memory.allocator, allocators_relocated, Allocator.spend_zero, Memory.allocator]
  have sizes : first.growthSizes (extent :: blocks).length =
      first.growthSizes blocks.length ++ [extent.size] := by
    rw [List.length_cons, growthSizes_succ, size, request]
  refine ⟨⟨regrown.make.allocator_eq, regrown.make.role_eq, regrown.make.layout_eq,
    regrown.make.inlineCapacity_eq⟩, rfl, rfl, ?_, ?_, ?_, ?_, ?_, ?_⟩
  · rw [List.map_cons, regrown.sizes_eq, sizes, List.reverse_append]
    rfl
  · have block := regrown.block_eq
    have inline := regrown.isInline_eq
    cases blocks with
    | nil =>
        have still : buffer.owned? = none := owned?_eq_none_iff.mpr
          ((owned?_eq_none_iff.mp unowned).imp block.trans inline.trans)
        rw [calls_relocated_of_unowned still, called, regrown.calls_eq]
        rfl
    | cons old rest =>
        rw [calls_relocated_of_block block inline, regrown.make.allocator_eq,
          Memory.takesBack_of_spend spent, regrown.taken old rfl, called, regrown.calls_eq]
        rfl
  · intro more
    rw [sizes, List.append_assoc, List.singleton_append, ← regrown.affords_iff]
    rw [← size] at supplied
    have positive : 0 < extent.size := by
      rw [size]
      exact growth_pos (by rwa [regrown.make.layout_eq])
    refine (Memory.affords_congr ?_ ?_).trans (Memory.affords_cons_iff positive supplied).symm
    · rw [unmoved, Allocator.spend_zero]
    · exact machine_relocated buffer extent after
  · intro _
    rw [sizes, ← regrown.affords_iff, size]
    exact Memory.affords_of_allocate supplied
  · rw [unmoved, Allocator.spend_zero, spent, regrown.spent, Allocator.spend_spend, sizes,
      List.sum_append, List.sum_singleton, size]
  · intro block member
    cases member
    rw [Memory.takesBack_of_spend unmoved]
    exact returned

end Regrown

/-! ## Pushing -/

theorem unasked_fill (buffer : Buffer) (place : ItemPlace) (value : Value) (memory : Memory) :
    memory.Unasked (final (buffer.fill place value memory)) := by
  obtain ⟨bytes, -, same⟩ := final_fill buffer place value memory
  rw [same]
  exact ⟨rfl, rfl, rfl⟩

theorem unasked_clearAt (buffer : Buffer) (start count : Nat) (memory : Memory) :
    memory.Unasked (buffer.clearAt start count memory) := by
  unfold clearAt
  cases buffer.block <;> exact ⟨rfl, rfl, rfl⟩

/-- Where there is room, a push succeeds for the values that the item takes, and fails for the
others. -/
theorem push_of_makeRoom (made : buffer.makeRoom memory = .ok roomy between) (value : Value) :
    (∃ after, BufferM.push value ⟨buffer, memory⟩ =
        .ok () ⟨{ roomy with count := roomy.count + 1 }, after⟩ ∧
      between.Unasked after ∧ (roomy.layout.kept? value).isSome = true) ∨
    ∃ cause after, BufferM.push value ⟨buffer, memory⟩ = .error cause ⟨roomy, after⟩ ∧
      between.Unasked after ∧ (roomy.block = none ∨ roomy.layout.kept? value = none) := by
  rw [push_eq, made]
  dsimp only
  cases block : roomy.block with
  | none =>
      have refused : roomy.openPlace roomy.count between = .error .rejectedValue between := by
        simp only [openPlace, block, run_throw]
      rw [refused]
      exact .inr ⟨_, between, rfl, .refl between, .inl rfl⟩
  | some extent =>
      cases single : roomy.layout.singleItem? with
      | none =>
          have refused : roomy.openPlace roomy.count between = .error .rejectedValue between := by
            simp only [openPlace, block, single, run_throw]
          rw [refused]
          exact .inr ⟨_, between, rfl, .refl between, .inr (by rw [Layout.kept?, single])⟩
      | some item =>
          obtain ⟨offset, type⟩ := item
          have place : roomy.openPlace roomy.count between =
              .ok ⟨extent.storage, roomy.elementStart extent roomy.count + offset, type⟩
                (roomy.clearAt (roomy.count * roomy.layout.size) roomy.layout.size between) := by
            simp only [openPlace, block, single, run_bind, run_modify, run_pure, clearAt,
              elementStart]
          rw [place]
          dsimp only
          have cleared := unasked_clearAt roomy (roomy.count * roomy.layout.size)
            roomy.layout.size between
          have filled := cleared.trans (unasked_fill roomy
            ⟨extent.storage, roomy.elementStart extent roomy.count + offset, type⟩ value _)
          unfold fill at filled ⊢
          dsimp only at filled ⊢
          cases encoded : type.encode roomy.layout.isNative roomy.layout.bigEndian value with
          | ok bytes =>
              rw [encoded] at filled
              refine .inl ⟨_, rfl, filled, ?_⟩
              rw [Layout.kept?, single]
              simp only [encoded, Option.isSome_some]
          | error fault =>
              rw [encoded] at filled
              refine .inr ⟨_, _, rfl, filled, .inr ?_⟩
              rw [Layout.kept?, single]
              simp only [encoded]

/-- After so many growths there is room for `count` elements, and not before. -/
structure Reaches (first : Buffer) (steps count : Nat) : Prop where
  enough : count ≤ grown (first.blockSize / first.layout.size) steps
  needed : ∀ earlier < steps, grown (first.blockSize / first.layout.size) earlier < count

namespace Reaches

variable {steps count : Nat}

theorem start (room : count ≤ first.blockSize / first.layout.size) : Reaches first 0 count :=
  ⟨room, fun _ before => absurd before (Nat.not_lt_zero _)⟩

theorem spare (reaches : Reaches first steps count)
    (unfilled : count ≠ grown (first.blockSize / first.layout.size) steps) :
    Reaches first steps (count + 1) :=
  ⟨Nat.lt_of_le_of_ne reaches.enough unfilled,
    fun earlier before => Nat.lt_succ_of_lt (reaches.needed earlier before)⟩

theorem full (filled : count = grown (first.blockSize / first.layout.size) steps) :
    Reaches first (steps + 1) (count + 1) := by
  rw [filled]
  refine ⟨grown_lt_succ _ steps, fun earlier before => Nat.lt_succ_of_le ?_⟩
  exact (grown_strictMono _).monotone (Nat.le_of_lt_succ before)

theorem steps_eq {other : Nat} (reaches : Reaches first steps count)
    (also : Reaches first other count) : steps = other := by
  rcases Nat.lt_trichotomy steps other with before | same | behind
  · exact absurd (also.needed steps before) (Nat.not_lt.mpr reaches.enough)
  · exact same
  · exact absurd (reaches.needed other behind) (Nat.not_lt.mpr also.enough)

end Reaches

theorem exists_reaches (first : Buffer) (count : Nat) : ∃ steps, Reaches first steps count := by
  have some_steps : ∃ steps, count ≤ grown (first.blockSize / first.layout.size) steps :=
    ⟨count, (grown_strictMono _).le_apply⟩
  exact ⟨Nat.find some_steps, Nat.find_spec some_steps,
    fun _ before => Nat.lt_of_not_le (Nat.find_min some_steps before)⟩

/-- What came of an extension that needs `total` places, counted from `first` in `base`. -/
inductive Extended (first : Buffer) (base : Memory) (values : List Value) (total : Nat) :
    EStateM.Result Fault BufferState Unit → Prop where
  | done {state : BufferState} {blocks : List Extent}
      (regrown : Regrown first base blocks state.buffer state.memory)
      (reaches : Reaches first blocks.length total) (count_eq : state.buffer.count = total)
      (taken : ∀ value ∈ values, (first.layout.kept? value).isSome = true) :
      Extended first base values total (.ok () state)
  | rejected {cause : Fault} {state : BufferState} {blocks : List Extent}
      (regrown : Regrown first base blocks state.buffer state.memory)
      (reaches : Reaches first blocks.length total) (count_lt : state.buffer.count < total)
      (value : Value) (member : value ∈ values) (untaken : first.layout.kept? value = none) :
      Extended first base values total (.error cause state)
  /-- The buffer was full, and its allocator had no block for it. -/
  | refused {cause : Fault} {state : BufferState} {blocks : List Extent} {between : Memory}
      (regrown : Regrown first base blocks state.buffer between)
      (memory_eq : state.memory =
        between.record (.allocate first.allocator state.buffer.growth none))
      (full : grown (first.blockSize / first.layout.size) blocks.length < total)
      (denied : ¬base.Affords first.allocator (first.growthSizes (blocks.length + 1)))
      (short : cause.IsShortage = true) :
      Extended first base values total (.error cause state)

/-- One push, in a buffer that has only grown by pushing so far. It appends where there is room, and
grows once where there is none; the allocator may refuse the growth, and the layout the value. -/
theorem Regrown.push (regrown : Regrown first base blocks buffer memory)
    (unowned : first.owned? = none) (sized : 0 < first.layout.size)
    (reaches : Reaches first blocks.length buffer.count) (value : Value) :
    Extended first base [value] (buffer.count + 1)
      (BufferM.push value ⟨buffer, memory⟩) := by
  have capacity := regrown.capacity_eq sized
  have made := sized
  rw [← regrown.make.layout_eq] at made
  have room := makeRoom_cases made memory
  rw [capacity] at room
  -- Whatever the push writes, the blocks are those behind the room that was made.
  have behind {roomy : Buffer} {between : Memory} {more : List Extent}
      (ran : buffer.makeRoom memory = .ok roomy between)
      (grows : Regrown first base more roomy between) (count : roomy.count = buffer.count)
      (reached : Reaches first more.length (buffer.count + 1)) :
      Extended first base [value] (buffer.count + 1) (BufferM.push value ⟨buffer, memory⟩) := by
    have layout := grows.make.layout_eq
    rcases push_of_makeRoom ran value with
      ⟨after, pushed, unasked, taken⟩ | ⟨cause, after, failed, unasked, untaken⟩
    · rw [pushed]
      rw [layout] at taken
      refine .done ((grows.unasked unasked).recount _) reached (congrArg (· + 1) count) ?_
      intro only member
      rwa [List.mem_singleton.mp member]
    · rw [failed]
      rw [layout] at untaken
      refine .rejected (grows.unasked unasked) reached (by rw [count]; exact Nat.lt_succ_self _)
        value (List.mem_singleton_self value) (untaken.resolve_left fun absent => ?_)
      have places := grows.capacity_eq sized
      rw [blockSize_of_no_block absent, Nat.zero_div] at places
      exact Nat.not_succ_le_zero _ (places ▸ reached.enough)
  split at room
  · rename_i full
    split at room
    · rename_i extent after supplied
      exact behind room (regrown.grow unowned sized supplied) rfl (.full full)
    · rename_i cause after refused
      rw [push_eq, room]
      have recorded := Memory.allocate_error refused
      rw [regrown.make.allocator_eq] at recorded
      refine .refused regrown recorded (by rw [← full]; omega) ?_
        (Memory.shortage_of_allocate (Int.natCast_nonneg _) refused)
      · rw [growthSizes_succ, ← regrown.growth_eq sized, ← regrown.affords_iff]
        intro affords
        have positive := growth_pos made
        rw [← regrown.make.allocator_eq] at affords
        obtain ⟨extent, later, supplied, -⟩ := Memory.allocate_of_affords positive affords
        cases supplied.symm.trans refused
  · rename_i unfilled
    exact behind room regrown rfl (reaches.spare unfilled)

/-- Nothing more is called for in an extension than the blocks that its values need. -/
theorem Regrown.extend (regrown : Regrown first base blocks buffer memory)
    (unowned : first.owned? = none) (sized : 0 < first.layout.size)
    (reaches : Reaches first blocks.length buffer.count) (values : List Value) :
    Extended first base values (buffer.count + first.layout.tried values)
      (BufferM.extend values ⟨buffer, memory⟩) := by
  induction values generalizing blocks buffer memory with
  | nil => exact .done regrown reaches rfl (by simp)
  | cons value rest ih =>
      have pushed := regrown.push unowned sized reaches value
      rw [extend_cons]
      generalize BufferM.push value ⟨buffer, memory⟩ = result at pushed ⊢
      cases pushed with
      | @done state more grows reached count_eq taken =>
          have took := taken value (List.mem_singleton_self value)
          rw [← count_eq] at reached
          have total : buffer.count + first.layout.tried (value :: rest) =
              state.buffer.count + first.layout.tried rest := by
            rw [Layout.tried, if_pos took, count_eq]
            omega
          have behind := ih grows reached
          rw [total]
          dsimp only
          generalize BufferM.extend rest ⟨state.buffer, state.memory⟩ = outcome at behind ⊢
          cases behind with
          | done grows reached count_eq taken =>
              exact .done grows reached count_eq (List.forall_mem_cons.mpr ⟨took, taken⟩)
          | rejected grows reached count_lt other member untaken =>
              exact .rejected grows reached count_lt other (List.mem_cons_of_mem value member)
                untaken
          | refused grows memory_eq full denied short =>
              exact .refused grows memory_eq full denied short
      | @rejected cause state more grows reached count_lt other member untaken =>
          cases List.mem_singleton.mp member
          rw [Layout.tried, untaken]
          exact .rejected grows reached count_lt value List.mem_cons_self untaken
      | @refused cause state more between grows memory_eq full denied short =>
          refine .refused grows memory_eq (Nat.lt_of_lt_of_le full ?_) denied short
          rw [Layout.tried]
          split <;> omega

theorem extended_push (unowned : buffer.owned? = none) (sized : 0 < buffer.layout.size)
    (room : buffer.count ≤ buffer.blockSize / buffer.layout.size) (value : Value) :
    Extended buffer memory [value] (buffer.count + 1) (BufferM.push value ⟨buffer, memory⟩) :=
  (Regrown.refl buffer memory).push unowned sized (.start room) value

theorem extended_extend (unowned : buffer.owned? = none) (sized : 0 < buffer.layout.size)
    (room : buffer.count ≤ buffer.blockSize / buffer.layout.size) (values : List Value) :
    Extended buffer memory values (buffer.count + buffer.layout.tried values)
      (BufferM.extend values ⟨buffer, memory⟩) :=
  (Regrown.refl buffer memory).extend unowned sized (.start room) values

end Buffer

end LexKit
