import LexKit.Proofs.Buffer.Regrowth
import LexKit.Proofs.Buffer.Rejection

/-!
# Operations within the block

A buffer whose block no allocator supplied, and the operations that need no more places than it has.
They leave the block where it is and call no allocator. An operation that needs more moves the
elements to a block of the allocator; all of them are the same there.
-/

set_option autoImplicit false

namespace LexKit.Buffer

open Running

variable {buffer later source : Buffer} {memory after : Memory} {value : Value}
  {values : List Value} {extent : Extent} {state last : BufferState} {offset : Nat}
  {type : FieldType}

/-! ## Values that are read in turn -/

/-- The values that an extension by the elements of a block comes to read. -/
def readings (source : Buffer) (extent : Extent) (index : Nat) : Nat → BufferState → List Value
  | 0, _ => []
  | count + 1, state =>
      match source.elementFound state.memory extent index with
      | .error _ => []
      | .ok value =>
          value ::
            match BufferM.push value state with
            | .ok _ next => readings source extent (index + 1) count next
            | .error _ _ => []

def readBy (source : Buffer) (state : BufferState) : List Value :=
  match source.block with
  | some extent => readings source extent 0 source.count state
  | none => []

private theorem final_extendFrom (index count : Nat) (state : BufferState) :
    final (BufferM.extendFrom source extent index count state) =
      final (BufferM.extend (readings source extent index count state) state) := by
  induction count generalizing index state with
  | zero => rfl
  | succ count ih =>
      obtain ⟨buffer, memory⟩ := state
      rw [extendFrom_succ, element_answer, readings]
      cases source.elementFound memory extent index with
      | error fault => rfl
      | ok value =>
          simp only [answer]
          rw [extend_cons]
          cases BufferM.push value ⟨buffer, memory⟩ with
          | error fault after => rfl
          | ok done next => exact ih (index + 1) next

/-- An extension by a buffer does what one by the values does that it reads. -/
theorem final_extendBy (source : Buffer) (state : BufferState) :
    final (BufferM.extendBy source state) =
      final (BufferM.extend (source.readBy state) state) := by
  unfold BufferM.extendBy readBy
  cases source.block with
  | none => rfl
  | some extent => exact final_extendFrom 0 source.count state

/-! ## Operations that need no block -/

/-- No allocator was called, the block is where it was, and it has places for all elements. -/
structure Rests (buffer : Buffer) (memory : Memory) (state : BufferState) : Prop where
  calls_eq : state.memory.calls = memory.calls
  allocator_eq : state.memory.allocator buffer.allocator = memory.allocator buffer.allocator
  buffer_eq : ∃ count ≤ buffer.blockSize / buffer.layout.size, state.buffer = { buffer with count }

theorem Rests.of_unasked (room : buffer.count ≤ buffer.blockSize / buffer.layout.size)
    (unasked : memory.Unasked after) : Rests buffer memory ⟨buffer, after⟩ :=
  ⟨unasked.calls_eq, unasked.allocator_eq _, buffer.count, room, rfl⟩

theorem Rests.of_room (room : buffer.count ≤ buffer.blockSize / buffer.layout.size)
    (memory : Memory) : Rests buffer memory ⟨buffer, memory⟩ :=
  .of_unasked room (.refl memory)

private theorem Regrown.eq_of_nil {first : Buffer} (regrown : Regrown first memory [] later after) :
    later = { first with count := later.count } := by
  obtain ⟨allocator, role, layout, inlineCapacity⟩ := regrown.make
  have block := regrown.block_eq
  have inline := regrown.isInline_eq
  cases later
  cases first
  cases allocator
  cases role
  cases layout
  cases inlineCapacity
  cases block
  cases inline
  rfl

/-- An extension within the places that there are needs no growth. -/
theorem Extended.rests {total : Nat} {result : EStateM.Result Fault BufferState Unit}
    (extended : Extended buffer memory values total result)
    (within : total ≤ buffer.blockSize / buffer.layout.size) :
    Rests buffer memory (final result) := by
  have unmoved : Reaches buffer 0 total := .start within
  have rested {state : BufferState} {blocks : List Extent}
      (regrown : Regrown buffer memory blocks state.buffer state.memory)
      (reaches : Reaches buffer blocks.length total) (count_le : state.buffer.count ≤ total) :
      Rests buffer memory state := by
    cases List.length_eq_zero_iff.mp (reaches.steps_eq unmoved)
    exact ⟨regrown.calls_eq, regrown.spent.trans (Allocator.spend_zero _), state.buffer.count,
      Nat.le_trans count_le within, regrown.eq_of_nil⟩
  cases extended with
  | done regrown reaches count_eq _ => exact rested regrown reaches (Nat.le_of_eq count_eq)
  | rejected regrown reaches count_lt _ _ _ => exact rested regrown reaches (Nat.le_of_lt count_lt)
  | @refused cause state blocks between _ _ full _ _ =>
      have least := (grown_strictMono (buffer.blockSize / buffer.layout.size)).monotone
        (Nat.zero_le blocks.length)
      exact absurd (Nat.lt_of_le_of_lt least full) (Nat.not_lt.mpr within)

theorem rests_set (room : buffer.count ≤ buffer.blockSize / buffer.layout.size)
    (index : Quantity) (value : Value) :
    Rests buffer memory (final (BufferM.set index value ⟨buffer, memory⟩)) := by
  have wrote : memory.Unasked (final (buffer.set index value memory)) := by
    unfold set
    rw [run_bind]
    rcases openAt_cases buffer index memory with ⟨fault, refused⟩ | ⟨place, -, same⟩
    · rw [refused]
      exact .refl memory
    · rw [same]
      rcases openPlace_cases buffer place memory with
        refused | ⟨extent, offset, type, -, -, cleared⟩
      · rw [refused]
        exact .refl memory
      · rw [cleared]
        exact (unasked_clearAt buffer _ _ memory).trans (unasked_fill buffer _ value _)
  unfold BufferM.set BufferM.observe
  dsimp only
  cases ran : buffer.set index value memory with
  | ok done after =>
      rw [ran] at wrote
      exact .of_unasked room wrote
  | error fault after =>
      rw [ran] at wrote
      exact .of_unasked room wrote

theorem rests_pop (room : buffer.count ≤ buffer.blockSize / buffer.layout.size) :
    Rests buffer memory (final (BufferM.pop ⟨buffer, memory⟩)) := by
  unfold BufferM.pop BufferM.exchange
  by_cases empty : buffer.count = 0
  · simp only [pop, empty, ↓reduceIte, run_bind, run_throw]
    exact .of_room room memory
  · simp only [pop, empty, ↓reduceIte, run_bind, run_pure, get_answer]
    cases buffer.found memory (.int (buffer.count - 1 : Nat)) with
    | error fault => exact .of_room room memory
    | ok value => exact ⟨rfl, rfl, buffer.count - 1, Nat.le_trans (Nat.sub_le _ _) room, rfl⟩

/-- A reservation within the places that there are asks nobody for anything, and the buffer stays as
it is. -/
theorem rests_reserve (room : buffer.count ≤ buffer.blockSize / buffer.layout.size)
    (sized : 0 < buffer.layout.size) {capacity : Int}
    (within : capacity ≤ (buffer.blockSize / buffer.layout.size : Nat)) :
    Rests buffer memory (final (BufferM.reserve capacity ⟨buffer, memory⟩)) := by
  simp only [BufferM.reserve, BufferM.replace, reserve_eq (Nat.ne_of_gt sized), if_pos within]
  exact .of_room room memory

theorem rests_resize (room : buffer.count ≤ buffer.blockSize / buffer.layout.size)
    (sized : 0 < buffer.layout.size) {count : Int}
    (within : count ≤ (buffer.blockSize / buffer.layout.size : Nat)) :
    Rests buffer memory (final (BufferM.resize count ⟨buffer, memory⟩)) := by
  by_cases negative : count < 0
  · simp only [BufferM.resize, BufferM.replace, resize_negative negative]
    exact .of_room room memory
  · simp only [BufferM.resize, BufferM.replace, resize_eq sized negative,
      if_neg (Int.not_lt.mpr within), GT.gt]
    exact ⟨rfl, rfl, count.toNat, Int.toNat_le.mpr within, rfl⟩

/-- A block that no allocator supplied is let go of without a call. -/
theorem release_of_unowned (unowned : buffer.owned? = none) (memory : Memory) :
    BufferM.release ⟨buffer, memory⟩ = .ok () ⟨buffer.emptied, memory⟩ := by
  unfold BufferM.release BufferM.replace release dropBlock
  rcases owned?_eq_none_iff.mp unowned with absent | inline
  · simp only [absent]
    rfl
  · simp only [inline]
    cases buffer.block <;> rfl

/-! ## Calls of an operation that needs a block -/

/-- The calls that are made where a buffer without an allocated block comes to need `total` places:
one for each block that is granted until there are enough, or until one is refused. -/
inductive Enlarged (first : Buffer) (total : Nat) (earlier later : List AllocatorCall) : Prop where
  | granted {blocks : List Extent} (reaches : Reaches first blocks.length total)
      (sizes_eq : blocks.map Extent.size = (first.growthSizes blocks.length).reverse)
      (calls_eq : later = growthCalls first.allocator blocks ++ earlier)
  | refused {blocks : List Extent}
      (full : grown (first.blockSize / first.layout.size) blocks.length < total)
      (sizes_eq : blocks.map Extent.size = (first.growthSizes blocks.length).reverse)
      (calls_eq : later =
        .allocate first.allocator (grown (first.blockSize / first.layout.size)
          (blocks.length + 1) * first.layout.size : Nat) none ::
            (growthCalls first.allocator blocks ++ earlier))

theorem Extended.enlarged {total : Nat} {result : EStateM.Result Fault BufferState Unit}
    (extended : Extended buffer memory values total result) (sized : 0 < buffer.layout.size) :
    Enlarged buffer total memory.calls (final result).memory.calls := by
  cases extended with
  | done regrown reaches _ _ => exact .granted reaches regrown.sizes_eq regrown.calls_eq
  | rejected regrown reaches _ _ _ _ => exact .granted reaches regrown.sizes_eq regrown.calls_eq
  | @refused cause state blocks between regrown memory_eq full _ _ =>
      refine .refused full regrown.sizes_eq ?_
      rw [final, memory_eq, ← regrown.growth_eq sized, ← regrown.calls_eq]
      rfl

/-- Where one place more is needed than there are, one block is asked for. -/
theorem Enlarged.single {total : Nat} {earlier later : List AllocatorCall}
    (enlarged : Enlarged buffer total earlier later)
    (more : total = buffer.blockSize / buffer.layout.size + 1) :
    ∃ size result, later = .allocate buffer.allocator size result :: earlier := by
  subst more
  cases enlarged with
  | @granted blocks reaches _ calls_eq =>
      have once : blocks.length = 1 := reaches.steps_eq (.full rfl)
      obtain ⟨block, rfl⟩ := List.length_eq_one_iff.mp once
      exact ⟨_, _, calls_eq⟩
  | @refused blocks full _ calls_eq =>
      have none_before : blocks.length = 0 := by
        refine Nat.eq_zero_of_not_pos fun some_before => Nat.not_lt.mpr (Nat.le_of_lt_succ full) ?_
        exact grown_strictMono _ some_before
      cases List.length_eq_zero_iff.mp none_before
      exact ⟨_, _, calls_eq⟩

theorem memory_replace (action : Buffer → MemoryM Buffer) (buffer : Buffer) (memory : Memory) :
    (final (BufferM.replace action ⟨buffer, memory⟩)).memory = final (action buffer memory) := by
  unfold BufferM.replace
  dsimp only
  cases action buffer memory <;> rfl

/-- A reservation beyond the inline places is heard of by the allocator, even where it is refused;
this is the first call that the buffer makes. -/
theorem reserve_called (unowned : buffer.owned? = none) (sized : 0 < buffer.layout.size)
    {capacity : Int} (beyond : (buffer.blockSize / buffer.layout.size : Nat) < capacity)
    (memory : Memory) :
    ∃ size result, (final (buffer.reserve capacity memory)).calls =
      .allocate buffer.allocator size result :: memory.calls := by
  rw [reserve_eq (Nat.ne_of_gt sized), if_neg (Int.not_le.mpr beyond)]
  cases ran : Memory.allocate buffer.allocator (capacity * buffer.layout.size) memory with
  | ok extent after =>
      refine ⟨capacity * buffer.layout.size, some extent, ?_⟩
      dsimp only [final]
      rw [calls_relocated_of_unowned unowned, Memory.calls_of_allocate ran]
  | error fault after =>
      cases Memory.allocate_error ran
      exact ⟨_, none, rfl⟩

theorem resize_called (unowned : buffer.owned? = none) (sized : 0 < buffer.layout.size)
    {count : Int} (beyond : (buffer.blockSize / buffer.layout.size : Nat) < count)
    (memory : Memory) :
    ∃ size result, (final (buffer.resize count memory)).calls =
      .allocate buffer.allocator size result :: memory.calls := by
  have called := reserve_called unowned sized beyond memory
  have natural : 0 ≤ count := Int.le_of_lt (Int.lt_of_le_of_lt (Int.natCast_nonneg _) beyond)
  rw [resize_eq sized (Int.not_lt.mpr natural), if_pos beyond]
  cases ran : buffer.reserve count memory with
  | ok roomy after =>
      rw [ran] at called
      exact called
  | error fault after =>
      rw [ran] at called
      exact called

/-! ## Elements that are kept -/

theorem prefix_recount {count : Nat} (more : buffer.count ≤ count) (memory : Memory) :
    buffer.elements memory <+: Buffer.elements { buffer with count } memory := by
  obtain ⟨further, rfl⟩ := Nat.exists_eq_add_of_le more
  unfold elements
  rw [List.range_add, List.map_append]
  exact List.prefix_append _ _

structure Keeps (buffer : Buffer) (memory : Memory) (state : BufferState) : Prop where
  kept : buffer.elements memory <+: state.buffer.elements state.memory
  confined : Confined False buffer memory state.buffer state.memory

/-- Where the item takes a value, a push of it fails for want of room only. -/
private theorem makeRoom_of_push_error {cause : Fault} (ready : buffer.Ready memory)
    (housed : buffer.Housed) (taken : buffer.layout.kept? value ≠ none)
    (ran : BufferM.push value ⟨buffer, memory⟩ = .error cause state) :
    ∃ after, buffer.makeRoom memory = .error cause after ∧ state = ⟨buffer, after⟩ := by
  have room := roomed_makeRoom ready.fits housed
  cases made : buffer.makeRoom memory with
  | error fault after =>
      rw [push_eq, made] at ran
      cases ran
      exact ⟨after, rfl, rfl⟩
  | ok roomy between =>
      rw [made] at room
      obtain ⟨sized, reserved⟩ := room
      have space := reserved.room_le
      have layout := reserved.advance.make.layout_eq
      rcases push_of_makeRoom made value with
        ⟨after, pushed, -⟩ | ⟨fault, after, -, -, absent | untaken⟩
      · cases pushed.symm.trans ran
      · rw [blockSize_of_no_block absent, layout, Nat.succ_mul] at space
        omega
      · rw [layout] at untaken
        exact absurd untaken taken

/-- A push that fails leaves the elements as they were. -/
theorem elements_of_push_error {cause : Fault} (ready : buffer.Ready memory)
    (housed : buffer.Housed) (single : buffer.layout.singleItem? = some (offset, type))
    (ran : BufferM.push value ⟨buffer, memory⟩ = .error cause state) :
    state.buffer.elements state.memory = buffer.elements memory := by
  have held := ready.settled.held
  cases encoded : type.encode buffer.layout.isNative buffer.layout.bigEndian value with
  | error refusal =>
      obtain ⟨cause, state, failed, rejected⟩ :=
        push_rejected ready.fits housed held ⟨single, encoded⟩
      cases failed.symm.trans ran
      exact rejected.elements_eq (.inr ready.settled)
  | ok bytes =>
      have taken : buffer.layout.kept? value ≠ none := by
        rw [Layout.kept?, single]
        simp only [encoded]
        exact Option.some_ne_none _
      obtain ⟨after, made, rfl⟩ := makeRoom_of_push_error ready housed taken ran
      have room := roomed_makeRoom ready.fits housed
      rw [made] at room
      exact elements_of_changes room housed held

theorem keeps_push (ready : buffer.Ready memory) (housed : buffer.Housed)
    (single : buffer.layout.singleItem? = some (offset, type)) (value : Value) :
    Keeps buffer memory (final (BufferM.push value ⟨buffer, memory⟩)) := by
  refine ⟨?_, confines_push ready.fits housed False.elim value⟩
  cases ran : BufferM.push value ⟨buffer, memory⟩ with
  | ok done state =>
      obtain ⟨keeps, -, pushed⟩ := pushed_of_push ready.fits housed ready.settled.held ran
      dsimp only [final]
      rw [pushed.elements_eq ready.settled]
      exact List.prefix_append _ _
  | error cause state => exact elements_of_push_error ready housed single ran ▸ List.prefix_rfl

theorem keeps_extend (ready : buffer.Ready memory) (housed : buffer.Housed)
    (single : buffer.layout.singleItem? = some (offset, type)) (values : List Value) :
    Keeps buffer memory (final (BufferM.extend values ⟨buffer, memory⟩)) := by
  induction values generalizing buffer memory with
  | nil => exact ⟨List.prefix_rfl, .refl housed memory⟩
  | cons value rest ih =>
      have once := keeps_push ready housed single value
      rw [extend_cons]
      cases ran : BufferM.push value ⟨buffer, memory⟩ with
      | error cause state =>
          rw [ran] at once
          exact once
      | ok done state =>
          rw [ran] at once
          have make := once.confined.advance.make
          rw [← make.layout_eq] at single
          have behind := ih (once.confined.advance.ready ready) once.confined.housed single
          exact ⟨once.kept.trans behind.kept, once.confined.trans behind.confined⟩

theorem keeps_reserve (ready : buffer.Ready memory) (housed : buffer.Housed) (capacity : Int) :
    Keeps buffer memory (final (BufferM.reserve capacity ⟨buffer, memory⟩)) := by
  refine ⟨?_, confines_reserve ready.fits housed capacity⟩
  have room := roomed_reserve ready.fits capacity
  unfold BufferM.reserve BufferM.replace
  dsimp only
  cases ran : buffer.reserve capacity memory with
  | ok roomy after =>
      rw [ran] at room
      exact room.2.elements_eq housed ready.settled ▸ List.prefix_rfl
  | error fault after =>
      rw [ran] at room
      exact elements_of_changes room housed ready.settled.held ▸ List.prefix_rfl

/-- The places that are new to the count come behind the elements. -/
theorem prefix_resize (ready : buffer.Ready memory) (housed : buffer.Housed)
    (sized : 0 < buffer.layout.size) {count : Int}
    (beyond : (buffer.blockSize / buffer.layout.size : Nat) < count) :
    buffer.elements memory <+: (final (BufferM.resize count ⟨buffer, memory⟩)).buffer.elements
      (final (BufferM.resize count ⟨buffer, memory⟩)).memory := by
  have kept := (keeps_reserve ready housed count).kept
  have natural : 0 ≤ count := Int.le_of_lt (Int.lt_of_le_of_lt (Int.natCast_nonneg _) beyond)
  have room := roomed_reserve ready.fits count
  have fewer := housed.count_le sized
  unfold BufferM.reserve BufferM.replace at kept
  unfold BufferM.resize BufferM.replace
  dsimp only at kept ⊢
  rw [resize_eq sized (Int.not_lt.mpr natural), if_pos beyond]
  cases ran : buffer.reserve count memory with
  | error fault after =>
      rw [ran] at kept
      exact kept
  | ok roomy after =>
      rw [ran] at kept room
      have whole : roomy.count ≤ count.toNat := by
        rw [room.2.count_eq]
        omega
      exact kept.trans (prefix_recount whole after)

end LexKit.Buffer
