import LexKit.Proofs.Memory.Allocation
import LexKit.Proofs.Quantity
import LexKit.Proofs.Running
import LexKit.Session.Storing

/-!
# Requests to an arena

What a session does with a request for a block, with a block that is given back, with a reset and
with a close, as long as sizes are integers: for each of them an equation that shows the result and
the session afterwards.
-/

set_option autoImplicit false

namespace LexKit

namespace Session

def withMemory (session : Session) (memory : Memory) : Session :=
  { session with workspace := { session.workspace with memory := memory } }

def logged (session : Session) (call : LoggedCall) : Session :=
  { session with calls := call :: session.calls }

def absorbed (session : Session) (memory : Memory) : Session :=
  session.adopt ⟨memory, session.workspace.buffers⟩

end Session

def PlacedBlock.ofBlock (block : Block) : PlacedBlock :=
  ⟨match block.storage with
    | none => Object.none
    | some id => .storage id, Object.int block.start, Object.int block.size⟩

namespace SessionM

open Running

theorem quantityOf_int (value : Int) (session : Session) :
    quantityOf (Object.int value) session = .ok (.int value) session :=
  rfl

theorem intOf_int (value : Int) (session : Session) :
    intOf (Object.int value) session = .ok value session :=
  rfl

structure CountsWhole (session : Session) (id : AllocatorId) : Prop where
  own : session.strangers.lookup id = none
  whole : session.realUses.lookup id = none

/-! ## Requests -/

section Grant

variable {session : Session} {id : AllocatorId} {region : Extent} {used : Nat} {size : Int}

private theorem grant_closed (counts : CountsWhole session id)
    (known : session.memory.allocator id = .arena ⟨none, used⟩) (size : Object) :
    grant id size session = .error (.memory .arenaClosed) session := by
  simp only [grant, run_bind, run_get, counts.own, known, Option.isSome_none, Bool.false_eq_true,
    ↓reduceIte]
  rfl

private theorem useUp_of_room (counts : CountsWhole session id)
    (room : (used : Int) + size ≤ region.size) :
    session.useUp id ⟨some region, used⟩ (.int size) = .ok (.int (used + size)) := by
  simp only [Session.useUp, Session.usedOf, counts.whole, Quantity.add?_int, Quantity.isLess_int,
    Arena.capacity, decide_eq_true_eq, if_neg (Int.not_lt.mpr room)]

private theorem useUp_of_exhausted (counts : CountsWhole session id)
    (short : (region.size : Int) < used + size) :
    session.useUp id ⟨some region, used⟩ (.int size) =
      .error (.exhausted (.int size) (session.remainingOf id ⟨some region, used⟩)
        (session.capacityOf ⟨some region, used⟩)) := by
  simp only [Session.useUp, Session.usedOf, counts.whole, Quantity.add?_int, Quantity.isLess_int,
    Arena.capacity, decide_eq_true_eq, if_pos short]

private theorem grant_negative (counts : CountsWhole session id)
    (known : session.memory.allocator id = .arena ⟨some region, used⟩) (negative : size < 0) :
    grant id (Object.int size) session =
      .error (.memory (.negativeSize (.int size))) session := by
  simp only [grant, run_bind, run_get, counts.own, known, Option.isSome_none, Bool.false_eq_true,
    ↓reduceIte, quantityOf_int, Quantity.isNegative_int, decide_eq_true negative]
  rfl

private theorem grant_exhausted (counts : CountsWhole session id)
    (known : session.memory.allocator id = .arena ⟨some region, used⟩) (natural : ¬size < 0)
    (short : (region.size : Int) < used + size) :
    grant id (Object.int size) session =
      .error (.exhausted (.int size) (session.remainingOf id ⟨some region, used⟩)
        (session.capacityOf ⟨some region, used⟩)) session := by
  simp only [grant, grantPart, run_bind, run_get, counts.own, known, Option.isSome_none,
    Bool.false_eq_true, ↓reduceIte, quantityOf_int, Quantity.isNegative_int,
    decide_eq_false natural, useUp_of_exhausted counts short]
  rfl

private theorem grant_supplied {extent : Extent} {after : Memory}
    (counts : CountsWhole session id)
    (known : session.memory.allocator id = .arena ⟨some region, used⟩) (natural : ¬size < 0)
    (room : (used : Int) + size ≤ region.size)
    (supplied : session.memory.grant id size = (.ok extent, after)) :
    grant id (Object.int size) session =
      .ok (PlacedBlock.ofExtent extent (Object.int size)) (session.withMemory after) := by
  simp only [grant, grantPart, grantWhole, run_bind, run_get, counts.own, known,
    Option.isSome_none, Bool.false_eq_true, ↓reduceIte, quantityOf_int, intOf_int,
    Quantity.isNegative_int, decide_eq_false natural, useUp_of_room counts room, supplied]
  rfl

private theorem allocate_granted {size : Object} {placed : PlacedBlock} {after : Session}
    (granted : grant id size session = .ok placed after) :
    allocate id size session =
      .ok (.block ⟨after.blocks.size⟩)
        { after.logged ⟨id, false, size, true⟩ with blocks := after.blocks.push placed } := by
  simp only [allocate, run_tryCatch, run_bind, granted]
  rfl

private theorem allocate_denied {size : Object} {fault : SessionFault} {after : Session}
    (denied : grant id size session = .error fault after) :
    allocate id size session = .error fault (after.logged ⟨id, false, size, false⟩) := by
  simp only [allocate, run_tryCatch, run_bind, denied]
  rfl

/-- A request that the arena meets is logged with the size as it was given, and its block has this
size as well. -/
theorem allocate_supplied {extent : Extent} {after : Memory} (counts : CountsWhole session id)
    (known : session.memory.allocator id = .arena ⟨some region, used⟩) (natural : ¬size < 0)
    (room : (used : Int) + size ≤ region.size)
    (supplied : session.memory.grant id size = (.ok extent, after)) :
    allocate id (Object.int size) session =
      .ok (.block ⟨session.blocks.size⟩)
        { (session.withMemory after).logged ⟨id, false, Object.int size, true⟩ with
          blocks := session.blocks.push (PlacedBlock.ofExtent extent (Object.int size)) } :=
  allocate_granted (grant_supplied counts known natural room supplied)

/-- A request that an open arena refuses changes the log only. -/
theorem allocate_refused (counts : CountsWhole session id)
    (known : session.memory.allocator id = .arena ⟨some region, used⟩)
    (refused : size < 0 ∨ (region.size : Int) < used + size) :
    ∃ fault, allocate id (Object.int size) session =
      .error fault (session.logged ⟨id, false, Object.int size, false⟩) := by
  by_cases negative : size < 0
  · exact ⟨_, allocate_denied (grant_negative counts known negative)⟩
  · have short := refused.resolve_left negative
    exact ⟨_, allocate_denied (grant_exhausted counts known negative short)⟩

theorem allocate_closed (counts : CountsWhole session id)
    (known : session.memory.allocator id = .arena ⟨none, used⟩) (size : Int) :
    allocate id (Object.int size) session =
      .error (.memory .arenaClosed) (session.logged ⟨id, false, Object.int size, false⟩) :=
  allocate_denied (grant_closed counts known (Object.int size))

end Grant

/-! ## Blocks that are given back -/

private theorem sum_int (left right : Int) (session : Session) :
    sum (Object.int left) (Object.int right) session = .ok (Object.int (left + right)) session :=
  rfl

private theorem isAtMost_int (left right : Int) (session : Session) :
    isAtMost (Object.int left) (Object.int right) session =
      .ok (decide (left ≤ right)) session := by
  change isAtMostWithin (999 + 1) (Object.int left) (Object.int right) session = _
  rw [isAtMostWithin, isAtMostBy]
  simp only [run_bind, run_get, Object.int, Object.quantity?, Quantity.isAtMost_int, run_pure]

private theorem contains_int (big small : Object) (bigStart bigSize smallStart smallSize : Int)
    (session : Session) :
    contains ⟨big, Object.int bigStart, Object.int bigSize⟩
        ⟨small, Object.int smallStart, Object.int smallSize⟩ session =
      .ok (big.isIdentical small && decide (bigStart ≤ smallStart) &&
        decide (smallStart + smallSize ≤ bigStart + bigSize)) session := by
  unfold contains stopOf
  cases big.isIdentical small with
  | false => rfl
  | true =>
      simp only [Bool.not_true, Bool.false_eq_true, ↓reduceIte, run_bind, isAtMost_int]
      cases decide (bigStart ≤ smallStart) with
      | false => rfl
      | true =>
          simp only [Bool.not_true, Bool.false_eq_true, ↓reduceIte, run_bind, sum_int]
          exact isAtMost_int _ _ session

private theorem contains_ofBlock (region : Extent) (block : Block) (session : Session) :
    contains (PlacedBlock.ofExtent region (Object.nat region.size)) (.ofBlock block) session =
      .ok ((Block.ofExtent region).contains block) session := by
  have parts := contains_int (.storage region.storage) (PlacedBlock.ofBlock block).storage
    region.start region.size block.start block.size session
  refine Eq.trans parts ?_
  obtain ⟨storage, start, size⟩ := block
  cases storage with
  | none => rfl
  | some id =>
      have same : Object.isIdentical (.storage region.storage) (.storage id) =
          (some id == some region.storage) := by
        rw [Object.isIdentical, Option.some_beq_some, BEq.comm]
      simp only [PlacedBlock.ofBlock, same]
      rfl

/-- An arena takes back what lies in its region, and nothing once it is closed. The handle becomes
empty then; else it stays as it is. The log is all that changes besides. -/
theorem free_block {session : Session} {id : AllocatorId} {arena : Arena} {handle : BlockId}
    {block : Block} (known : session.memory.allocator id = .arena arena)
    (held : session.block handle = .ofBlock block) :
    free id (.block handle) session =
      .ok (Object.bool (session.memory.takesBack id block))
        { session.logged ⟨id, true, Object.int block.size, session.memory.takesBack id block⟩ with
          blocks :=
            if session.memory.takesBack id block then
              session.blocks.setIfInBounds handle.index PlacedBlock.empty
            else session.blocks } := by
  have taken : takesBack id (.ofBlock block) session =
      .ok (session.memory.takesBack id block) session := by
    obtain ⟨region, used⟩ := arena
    cases region with
    | none => simp only [takesBack, Memory.takesBack, run_bind, run_get, known, run_pure]
    | some region =>
        simp only [takesBack, Memory.takesBack, run_bind, run_get, known, contains_ofBlock]
  simp only [free, freeBlock, run_bind, run_get, held, taken]
  cases session.memory.takesBack id block with
  | false => rfl
  | true => rfl

/-! ## Resets, closes and writes -/

theorem run_onMemory {α : Type} (action : MemoryM α) (session : Session) :
    onMemory action session =
      match action session.memory with
      | .ok result after => .ok result (session.absorbed after)
      | .error fault after =>
          .error ((session.absorbed after).explain fault).1
            ((session.absorbed after).explain fault).2 := by
  unfold onMemory onWorkspace WorkspaceM.onMemory
  obtain ⟨⟨memory, buffers⟩, blocks⟩ := session
  dsimp only [Session.memory]
  cases action memory with
  | ok result after => rfl
  | error fault after => rfl

/-- What becomes of a session without regard to its arenas: extents that were in a storage still
are, and what the session knows besides its memory stays. -/
structure Keeps (session after : Session) (id : AllocatorId) : Prop where
  counts : CountsWhole session id → CountsWhole after id
  flags : after.flagRegions = session.flagRegions
  holds : ∀ extent, session.memory.Holds extent → after.memory.Holds extent

theorem Keeps.trans {first second third : Session} {id : AllocatorId}
    (left : Keeps first second id) (right : Keeps second third id) : Keeps first third id :=
  ⟨fun counts => right.counts (left.counts counts), right.flags.trans left.flags,
    fun extent held => right.holds extent (left.holds extent held)⟩

private theorem keeps_absorbed {session : Session} {memory : Memory} (id : AllocatorId)
    (holds : ∀ extent, session.memory.Holds extent → memory.Holds extent) :
    Keeps session (session.absorbed memory) id :=
  ⟨fun counts => ⟨counts.own, counts.whole⟩, rfl, fun extent held =>
    ⟨(holds extent held).storage_lt, (holds extent held).stop_le⟩⟩

private def countedWhole (session : Session) (id : AllocatorId) : Session :=
  { session with realUses := session.realUses.filter fun (arena, _) => arena != id }

private theorem keeps_countedWhole (session : Session) (id : AllocatorId) :
    Keeps session (countedWhole session id) id := by
  refine ⟨fun counts => ⟨counts.own, ?_⟩, rfl, fun _ held => ⟨held.storage_lt, held.stop_le⟩⟩
  rw [List.lookup_eq_none_iff]
  intro use member
  have kept := (List.mem_filter.mp member).2
  rw [bne_iff_ne] at kept ⊢
  exact fun same => kept same.symm

private theorem holds_setAllocator {memory : Memory} {extent : Extent} (id : AllocatorId)
    (allocator : Allocator) (held : memory.Holds extent) :
    (memory.setAllocator id allocator).Holds extent :=
  ⟨held.storage_lt, held.stop_le⟩

theorem reset_arena {session : Session} {id : AllocatorId} {region : Option Extent} {used : Nat}
    (known : session.memory.allocator id = .arena ⟨region, used⟩) :
    ∃ after, reset id session = .ok () after ∧ Keeps session after id ∧
      after.memory.allocator id = .arena ⟨region, 0⟩ ∧ after.blocks = session.blocks := by
  have ran : Memory.reset id session.memory =
      .ok () (session.memory.setAllocator id (.arena ⟨region, 0⟩)) := by
    simp only [Memory.reset, known]
  refine ⟨countedWhole (session.absorbed
    (session.memory.setAllocator id (.arena ⟨region, 0⟩))) id, ?_, ?_, ?_, rfl⟩
  · simp only [reset, run_bind, run_onMemory, ran]
    rfl
  · exact (keeps_absorbed id fun _ held => holds_setAllocator id _ held).trans
      (keeps_countedWhole _ id)
  · exact Memory.allocator_setAllocator_self known _

private def withdrawn (memory : Memory) (region : Extent) : Memory :=
  { memory with
    allocators := memory.allocators.map fun
      | .heap => .heap
      | .arena arena => .arena (arena.without region) }

private theorem run_withdraw (region : Extent) (memory : Memory) :
    Memory.withdraw region memory = .ok () (withdrawn memory region) :=
  rfl

private theorem allocator_withdrawn {memory : Memory} {id : AllocatorId} (region : Extent)
    (known : memory.allocator id = .arena ⟨none, 0⟩) :
    (withdrawn memory region).allocator id = .arena ⟨none, 0⟩ := by
  have inside := Memory.lt_of_allocator_eq_arena known
  rw [Memory.allocator, Array.getD_eq_getD_getElem?, Array.getElem?_eq_getElem inside,
    Option.getD_some] at known
  simp [withdrawn, Memory.allocator, inside, known, Arena.without]

theorem close_arena {session : Session} {id : AllocatorId} {region : Option Extent} {used : Nat}
    (known : session.memory.allocator id = .arena ⟨region, used⟩) :
    ∃ after, close id session = .ok () after ∧ Keeps session after id ∧
      after.memory.allocator id = .arena ⟨none, 0⟩ ∧ after.blocks = session.blocks := by
  have ran : Memory.close id session.memory =
      .ok () (session.memory.setAllocator id (.arena ⟨none, 0⟩)) := by
    simp only [Memory.close, known]
  let between := countedWhole (session.absorbed
    (session.memory.setAllocator id (.arena ⟨none, 0⟩))) id
  have closed : between.memory.allocator id = .arena ⟨none, 0⟩ :=
    Memory.allocator_setAllocator_self known _
  have kept : Keeps session between id :=
    (keeps_absorbed id fun _ held => holds_setAllocator id (.arena ⟨none, 0⟩) held).trans
      (keeps_countedWhole _ id)
  cases region with
  | none =>
      refine ⟨between, ?_, kept, closed, rfl⟩
      simp only [close, run_bind, run_get, run_onMemory, ran, known]
      rfl
  | some region =>
      refine ⟨between.absorbed (withdrawn between.memory region), ?_,
        kept.trans (keeps_absorbed id fun _ held => ⟨held.storage_lt, held.stop_le⟩),
        allocator_withdrawn region closed, rfl⟩
      have withdrew := run_withdraw region between.memory
      simp only [close, run_bind, run_get, run_onMemory, ran, known]
      change onMemory (Memory.withdraw region) between = _
      rw [run_onMemory, withdrew]

private theorem poke_cases (block : Block) (index value : Int) (memory : Memory) :
    (∃ storage place byte, Memory.poke block index value memory =
      .ok () (memory.write storage place [byte])) ∨
    ∃ fault, Memory.poke block index value memory = .error fault memory ∧
      (fault = .readOnly ∨ fault = .byteIndexOutOfRange ∨ fault = .notByte) := by
  unfold Memory.poke
  split
  · exact .inr ⟨_, rfl, .inl rfl⟩
  · split
    · exact .inr ⟨_, rfl, .inr (.inl rfl)⟩
    · split
      · exact .inr ⟨_, rfl, .inr (.inr rfl)⟩
      · exact .inl ⟨_, _, _, rfl⟩

private theorem explain_of_poke (session : Session) {fault : Fault}
    (named : fault = .readOnly ∨ fault = .byteIndexOutOfRange ∨ fault = .notByte) :
    session.explain fault = (.memory fault, session) := by
  unfold Session.explain
  rcases named with rfl | rfl | rfl
  · rfl
  · rfl
  · rfl

private theorem poke_keeps (session : Session) (id : AllocatorId) (block : Block)
    (index value : Int) :
    ∃ after,
      (onMemory (Memory.poke block index value) session = .ok () after ∨
        ∃ fault, onMemory (Memory.poke block index value) session = .error fault after) ∧
      Keeps session after id ∧ after.memory.allocator id = session.memory.allocator id ∧
      after.blocks = session.blocks := by
  rcases poke_cases block index value session.memory with
    ⟨storage, place, byte, wrote⟩ | ⟨fault, refused, named⟩
  · refine ⟨session.absorbed (session.memory.write storage place [byte]), .inl ?_,
      keeps_absorbed id ?_, rfl, rfl⟩
    · rw [run_onMemory, wrote]
    · intro extent held
      exact (Memory.changesWithin_write session.memory storage place [byte]).holds held
  · refine ⟨session.absorbed session.memory, .inr ⟨.memory fault, ?_⟩,
      keeps_absorbed id fun _ held => held, rfl, rfl⟩
    have explained := explain_of_poke (session.absorbed session.memory) named
    simp only [run_onMemory, refused, explained]

/-- A write through a window leaves every arena as it was, whether it succeeds or not. -/
theorem setThrough_window (session : Session) (id : AllocatorId) (window : Window)
    (index value : Int) :
    ∃ after,
      (setThrough window (Object.int index) (Object.int value) session = .ok () after ∨
        ∃ fault, setThrough window (Object.int index) (Object.int value) session =
          .error fault after) ∧
      Keeps session after id ∧ after.memory.allocator id = session.memory.allocator id ∧
      after.blocks = session.blocks := by
  have unchanged : Keeps session session id := ⟨fun counts => counts, rfl, fun _ held => held⟩
  have poked := poke_keeps session id ⟨some window.storage, window.first, window.count⟩ index value
  cases released : window.isReleased with
  | true =>
      refine ⟨session, .inr ⟨.released, ?_⟩, unchanged, rfl, rfl⟩
      simp only [setThrough, released, ↓reduceIte]
      rfl
  | false =>
      cases fixed : window.isReadOnly with
      | true =>
          refine ⟨session, .inr ⟨.memory .readOnly, ?_⟩, unchanged, rfl, rfl⟩
          simp only [setThrough, released, fixed, Bool.false_eq_true, ↓reduceIte]
          rfl
      | false =>
          cases inside : (session.memory.bytePlace?
              ⟨some window.storage, window.first, window.count⟩ index).isNone with
          | true =>
              refine ⟨session, .inr ⟨.memory .byteIndexOutOfRange, ?_⟩, unchanged, rfl, rfl⟩
              simp only [setThrough, released, fixed, Bool.false_eq_true, ↓reduceIte, run_bind,
                intOf_int, run_get, inside]
              rfl
          | false =>
              simp only [setThrough, released, fixed, Bool.false_eq_true, ↓reduceIte, run_bind,
                intOf_int, run_get, inside]
              exact poked

/-! ## Views and new arenas -/

private theorem range_ofExtent {extent : Extent} {size : Nat} (inside : extent.stop ≤ size) :
    Block.range ⟨none, extent.start, extent.size⟩ size = (extent.start, extent.size) := by
  rw [Extent.stop] at inside
  have start : sliceBound size extent.start = extent.start := by
    rw [sliceBound, if_neg (by omega)]
    omega
  have stop : sliceBound size (extent.start + extent.size) = extent.start + extent.size := by
    rw [sliceBound, if_neg (by omega)]
    omega
  simp only [Block.range, Block.stop, start, stop, Nat.add_sub_cancel_left]

theorem view_ofExtent {session : Session} {extent : Extent}
    (held : session.memory.Holds extent) :
    view (PlacedBlock.ofExtent extent (Object.int extent.size)) session =
      .ok (session.memory.read extent) session := by
  have range := range_ofExtent held.stop_le
  have placed : placeOfBlock (PlacedBlock.ofExtent extent (Object.int extent.size)) session =
      .ok ⟨none, extent.start, extent.size⟩ session := rfl
  have shown : windowOver (PlacedBlock.ofExtent extent (Object.int extent.size)) session =
      .ok ⟨extent.storage, extent.start, extent.size, false, false⟩ session := by
    rw [windowOver]
    simp only [PlacedBlock.ofExtent] at placed ⊢
    simp only [run_bind, run_get, placed, range, run_pure]
  simp only [view, run_bind, shown, run_get, run_pure]
  rfl

theorem newArena_empty {machine : Machine} {capacity : Int} {arena : Object} {start : Session}
    (made : newArena (Object.int capacity) (Session.empty machine) = .ok arena start) :
    ∃ size : Nat, capacity = size ∧ arena = .allocator ⟨0⟩ ∧
      start = { Session.empty machine with workspace := ⟨.ofArena size 0 machine, #[]⟩ } := by
  have quantity := quantityOf_int capacity (Session.empty machine)
  by_cases negative : capacity < 0
  · simp only [newArena, run_bind, quantity, Quantity.isNegative_int, decide_eq_true negative,
      ↓reduceIte] at made
    cases made
  · obtain ⟨size, rfl⟩ := Int.eq_ofNat_of_zero_le (Int.not_lt.mp negative)
    refine ⟨size, rfl, ?_⟩
    simp only [newArena, run_bind, quantity, Quantity.isNegative_int, decide_eq_false negative,
      Bool.false_eq_true, ↓reduceIte, intOf_int, run_onMemory] at made
    rcases Memory.newArena_cases negative (Session.empty machine).memory with
      ⟨fault, refused, -⟩ | supplied
    · rw [refused] at made
      cases made
    · rw [supplied] at made
      cases made
      exact ⟨rfl, rfl⟩

end SessionM

end LexKit
