import LexKit.Proofs.Buffer.Exhaustion
import LexKit.Proofs.Buffer.Prolonging
import LexKit.Proofs.Memory.Affording

/-!
# Doubling

A buffer that takes as many elements as it has asks its allocator for room once at most: the block
that a full buffer asks for has twice the places. So it succeeds if and only if the places are there
or the allocator has room for that block, and otherwise it is refused the block.
-/

set_option autoImplicit false

namespace LexKit.Buffer

open Running

variable {buffer later last : Buffer} {memory after final : Memory} {value : Value}
  {values : List Value} {state : BufferState}

/-! ## Growing -/

def growth (buffer : Buffer) : Nat :=
  max leastGrowth (2 * (buffer.blockSize / buffer.layout.size)) * buffer.layout.size

theorem growth_pos (sized : 0 < buffer.layout.size) : 0 < buffer.growth :=
  Nat.mul_pos (Nat.lt_of_lt_of_le (by decide) (Nat.le_max_left _ _)) sized

theorem double_le_growth (buffer : Buffer) :
    2 * (buffer.blockSize / buffer.layout.size) * buffer.layout.size ≤ buffer.growth :=
  Nat.mul_le_mul_right _ (Nat.le_max_right _ _)

theorem blockSize_le_growth (sized : 0 < buffer.layout.size) :
    buffer.blockSize ≤ buffer.growth := by
  refine Nat.le_of_lt (Nat.lt_mul_of_div_lt ?_ sized)
  rw [leastGrowth]
  omega

/-- A full buffer asks for a block once, and moves to it. -/
theorem makeRoom_cases (sized : 0 < buffer.layout.size) (memory : Memory) :
    buffer.makeRoom memory =
      if buffer.count = buffer.blockSize / buffer.layout.size then
        match Memory.allocate buffer.allocator buffer.growth memory with
        | .ok extent after =>
            .ok { buffer with block := some extent, isInline := false }
              (buffer.relocated extent after)
        | .error fault after => .error fault after
      else .ok buffer memory := by
  have request : (max leastGrowth (2 * (buffer.blockSize / buffer.layout.size : Nat)) : Int) *
      buffer.layout.size = (buffer.growth : Nat) := by
    rw [growth]
    push_cast
    rfl
  have more : ¬(max leastGrowth (2 * (buffer.blockSize / buffer.layout.size : Nat)) : Int) ≤
      (buffer.blockSize / buffer.layout.size : Nat) := by
    rw [leastGrowth]
    omega
  rewrite [makeRoom_eq sized, reserve_eq (Nat.ne_of_gt sized), if_neg more, request]
  rfl

/-- The block has the size that it had and no allocator supplied anything, or the buffer moved to
the block that a full one asks for, or to a larger one. -/
inductive Grown (buffer : Buffer) (memory : Memory) (later : Buffer) (after : Memory) : Prop where
  | stays (blockSize_eq : later.blockSize = buffer.blockSize) (unasked : memory.Unasked after)
  | moves (affords : memory.Affords buffer.allocator [buffer.growth])
      (growth_le : buffer.growth ≤ later.blockSize)

theorem growth_congr (layout : later.layout = buffer.layout)
    (blockSize : later.blockSize = buffer.blockSize) : later.growth = buffer.growth := by
  rw [growth, growth, layout, blockSize]

theorem Grown.trans (left : Grown buffer memory later after) (right : Grown later after last final)
    (make : SameMake buffer later) (sized : 0 < buffer.layout.size) :
    Grown buffer memory last final := by
  cases left with
  | stays blockSize unasked =>
      have same := growth_congr make.layout_eq blockSize
      cases right with
      | stays later_blockSize still =>
          exact .stays (later_blockSize.trans blockSize) (unasked.trans still)
      | moves affords growth_le =>
          rw [same, make.allocator_eq, unasked.affords_iff] at affords
          rw [same] at growth_le
          exact .moves affords growth_le
  | moves affords growth_le =>
      refine .moves affords (Nat.le_trans growth_le ?_)
      cases right with
      | stays blockSize => exact Nat.le_of_eq blockSize.symm
      | moves _ further =>
          rw [← make.layout_eq] at sized
          exact Nat.le_trans (blockSize_le_growth sized) further

private theorem unasked_storeAt (buffer : Buffer) (index offset : Nat) (bytes : Bytes)
    (memory : Memory) : memory.Unasked (buffer.storeAt index offset bytes memory) := by
  unfold storeAt writeAt clearAt
  cases buffer.block <;> exact ⟨rfl, rfl, rfl⟩

theorem grown_of_push (sized : 0 < buffer.layout.size)
    (ran : BufferM.push value ⟨buffer, memory⟩ = .ok () state) :
    Grown buffer memory state.buffer state.memory := by
  obtain ⟨roomy, between, offset, type, bytes, made, -, -, rfl⟩ := push_ok ran
  rw [makeRoom_cases sized] at made
  split at made
  · split at made
    · rename_i extent supplied_memory supplied
      cases made
      have size := Memory.size_of_allocate supplied
      rw [Int.toNat_natCast] at size
      exact .moves (Memory.affords_of_allocate supplied) (Nat.le_of_eq size.symm)
    · cases made
  · cases made
    exact .stays rfl (unasked_storeAt buffer buffer.count offset bytes memory)

/-! ## Values that the items take -/

private theorem single_of_kept? {layout : Layout} {kept : Value}
    (taken : layout.kept? value = some kept) :
    ∃ offset type, layout.singleItem? = some (offset, type) := by
  unfold Layout.kept? at taken
  split at taken
  · rename_i offset type single
    exact ⟨offset, type, single⟩
  · cases taken

/-- A value that the items take is pushed, unless the buffer is full and is refused its block. -/
theorem push_cases {kept : Value} (fits : memory.Fits buffer.allocator) (housed : buffer.Housed)
    (sized : 0 < buffer.layout.size) (snug : buffer.layout.Snug)
    (taken : buffer.layout.kept? value = some kept) :
    (∃ state, BufferM.push value ⟨buffer, memory⟩ = .ok () state) ∨
    (buffer.count = buffer.blockSize / buffer.layout.size ∧
      ¬memory.Affords buffer.allocator [buffer.growth] ∧
      ∃ cause state, BufferM.push value ⟨buffer, memory⟩ = .error cause state ∧
        cause.IsShortage = true) := by
  have room := roomed_makeRoom fits housed
  rw [push_eq]
  cases made : buffer.makeRoom memory with
  | error cause between =>
      rw [makeRoom_cases sized] at made
      split at made
      · rename_i full
        split at made
        · cases made
        · rename_i refused
          cases made
          refine .inr ⟨full, ?_, cause, ⟨buffer, between⟩, rfl,
            Memory.shortage_of_allocate (Int.natCast_nonneg _) refused⟩
          intro affords
          obtain ⟨extent, later, supplied, -⟩ :=
            Memory.allocate_of_affords (growth_pos sized) affords
          cases supplied.symm.trans refused
      · cases made
  | ok roomy between =>
      rw [made] at room
      obtain ⟨-, reserved⟩ := room
      have space := reserved.room_le
      rw [← reserved.count_eq] at space
      rw [← reserved.advance.make.layout_eq] at sized snug taken
      obtain ⟨offset, type, single⟩ := single_of_kept? taken
      obtain ⟨bytes, place, opened, opening, filling, -⟩ :=
        store_of_kept? between ⟨single, sized, snug sized single⟩ space taken
      simp only [opening, filling]
      exact .inl ⟨_, rfl⟩

/-- There are places for twice the elements, or the allocator has room for a block of `request`
bytes. -/
def RoomToDouble (buffer : Buffer) (request : Nat) (memory : Memory) : Prop :=
  2 * buffer.count ≤ buffer.blockSize / buffer.layout.size ∨
    memory.Affords buffer.allocator [request]

variable {first : Buffer} {base : Memory}

/-- What came of an extension by values that the items keep as they are. `first` is the buffer that
the growth is counted from. -/
inductive Extension (first : Buffer) (base : Memory) (values : List Value) (buffer : Buffer)
    (memory : Memory) : EStateM.Result Fault BufferState Unit → Prop where
  | done {state : BufferState} (grown : Grown first base state.buffer state.memory)
      (pushed : Pushed values buffer memory state.buffer state.memory) :
      Extension first base values buffer memory (.ok () state)
  | refused {cause : Fault} {state : BufferState} (short : cause.IsShortage = true)
      (denied : ¬base.Affords first.allocator [first.growth])
      (full : first.blockSize / first.layout.size < buffer.count + values.length) :
      Extension first base values buffer memory (.error cause state)

/-- A buffer that has grown has places for all values, so that it is refused its first growth or
none. -/
private theorem Extension.of_refused {rest : List Value} {cause : Fault}
    (grown : Grown first base buffer memory) (make : SameMake first buffer)
    (sized : 0 < first.layout.size)
    (within : (buffer.count + (value :: rest).length) * first.layout.size ≤ first.growth)
    (full : buffer.count = buffer.blockSize / buffer.layout.size)
    (denied : ¬memory.Affords buffer.allocator [buffer.growth]) (short : cause.IsShortage = true) :
    Extension first base (value :: rest) buffer memory (.error cause state) := by
  rw [List.length_cons] at within
  rw [make.layout_eq] at full
  cases grown with
  | stays blockSize unasked =>
      rw [growth_congr make.layout_eq blockSize, make.allocator_eq, unasked.affords_iff] at denied
      rw [blockSize] at full
      refine .refused short denied ?_
      rw [← full, List.length_cons]
      omega
  | moves affords growth_le =>
      have room := (Nat.le_div_iff_mul_le sized).mpr (Nat.le_trans within growth_le)
      omega

theorem extension_of_extend (grown : Grown first base buffer memory) (make : SameMake first buffer)
    (fits : memory.Fits buffer.allocator) (housed : buffer.Housed) (held : buffer.Held memory)
    (sized : 0 < first.layout.size) (snug : first.layout.Snug)
    (taken : ∀ value ∈ values, first.layout.kept? value = some value)
    (within : (buffer.count + values.length) * first.layout.size ≤ first.growth) :
    Extension first base values buffer memory (BufferM.extend values ⟨buffer, memory⟩) := by
  induction values generalizing buffer memory with
  | nil => exact .done grown (.refl housed memory)
  | cons value rest ih =>
      have layout := make.layout_eq
      have keeps := taken value List.mem_cons_self
      have more := sized
      have still := snug
      rw [← layout] at keeps more still
      rw [extend_cons]
      rcases push_cases fits housed more still keeps with
        ⟨state, ran⟩ | ⟨full, denied, cause, state, ran, short⟩
      · rw [ran]
        obtain ⟨kept, found, once⟩ := pushed_of_push fits housed held ran
        cases keeps.symm.trans found
        have made := once.confined.advance.make
        have count := once.count_eq
        rw [List.length_singleton] at count
        rw [List.length_cons] at within
        have behind := ih (grown.trans (grown_of_push more ran) make sized) (make.trans made)
          (once.confined.fits fits) once.confined.housed (once.confined.held held)
          (fun other member => taken other (List.mem_cons_of_mem value member))
          (by rw [count, Nat.add_right_comm]; exact within)
        dsimp only
        generalize BufferM.extend rest state = result at behind ⊢
        cases behind with
        | done further pushed => exact .done further (once.trans pushed)
        | refused short denied full =>
            refine .refused short denied ?_
            rw [List.length_cons]
            omega
      · rw [ran]
        exact .of_refused grown make sized within full denied short

/-! ## A buffer by itself -/

theorem Housed.count_le (housed : buffer.Housed) (sized : 0 < buffer.layout.size) :
    buffer.count ≤ buffer.blockSize / buffer.layout.size :=
  (Nat.le_div_iff_mul_le sized).mpr housed.room

namespace Listed

variable {source : Buffer}

/-- An extension of a buffer by itself reads one element after the other, though the buffer may move
meanwhile. What is read are the elements that there were at the beginning. -/
theorem extension (listed : Listed source base) (fits : base.Fits source.allocator)
    (sized : 0 < source.layout.size) :
    Extension source base (source.elements base) source base
      (BufferM.extendBy source ⟨source, base⟩) := by
  obtain ⟨item, single⟩ := listed.single
  rw [listed.extendBy_eq fits]
  refine extension_of_extend (.stays rfl (.refl base)) (.refl source) fits listed.housed
    listed.settled.held sized listed.snug ?_ ?_
  · intro value member
    obtain ⟨index, -, rfl⟩ := List.mem_map.mp member
    exact kept?_slot listed.housed.read single listed.readable base index
  · have count := listed.housed.count_le sized
    rw [length_elements, ← Nat.two_mul]
    exact Nat.le_trans (Nat.mul_le_mul_right _ (Nat.mul_le_mul_left 2 count))
      (double_le_growth source)

/-- The elements are doubled if and only if there is room for them. -/
theorem extendBy_cases (listed : Listed source base) (fits : base.Fits source.allocator)
    (sized : 0 < source.layout.size) :
    (source.RoomToDouble source.growth base → ∃ state,
      BufferM.extendBy source ⟨source, base⟩ = .ok () state ∧
        Pushed (source.elements base) source base state.buffer state.memory) ∧
    (¬source.RoomToDouble source.growth base → ∃ cause state,
      BufferM.extendBy source ⟨source, base⟩ = .error cause state ∧ cause.IsShortage = true) := by
  have extension := listed.extension fits sized
  generalize BufferM.extendBy source ⟨source, base⟩ = result at extension ⊢
  cases extension with
  | @done state grown pushed =>
      refine ⟨fun _ => ⟨state, rfl, pushed⟩, fun scarce => absurd ?_ scarce⟩
      cases grown with
      | stays blockSize unasked =>
          left
          have layout := pushed.confined.advance.make.layout_eq
          have more := sized
          rw [← layout] at more
          have count := pushed.confined.housed.count_le more
          rwa [pushed.count_eq, length_elements, layout, blockSize, ← Nat.two_mul] at count
      | moves affords growth_le => exact .inr affords
  | @refused cause state short denied full =>
      refine ⟨fun room => absurd room ?_, fun _ => ⟨cause, state, rfl, short⟩⟩
      rw [length_elements, ← Nat.two_mul] at full
      rintro (spare | affords)
      · exact Nat.not_le_of_lt full spare
      · exact denied affords

end Listed

/-! ## A text by itself -/

theorem content_eq_map (held : buffer.Held memory) (room : buffer.count ≤ buffer.blockSize) :
    buffer.content memory = (List.range buffer.count).map (buffer.byteAt memory) := by
  rw [content, rawBytes_eq held, ← List.map_take, List.take_range, Nat.min_eq_left room]

theorem content_of_appendBytes {bytes : Bytes} (fits : memory.Fits buffer.allocator)
    (settled : buffer.Settled memory buffer.allocator) (sized : 0 < buffer.layout.size)
    (room : buffer.count ≤ buffer.blockSize)
    (appended : buffer.appendBytes bytes memory = .ok later after) :
    later.content after = buffer.content memory ++ bytes := by
  have spec := appended_of_appendBytes sized fits settled appended
  have front := content_eq_map settled.held room
  have length : (buffer.content memory).length = buffer.count := by
    rw [front, List.length_map, List.length_range]
  refine content_eq (spec.advance.settled settled).held ?_ (spec.room room) ?_
  · rw [spec.count_eq, List.length_append, length]
  · intro place inside
    rw [List.length_append] at inside
    rw [spec.byteAt_eq, List.getElem_append]
    by_cases behind : buffer.count ≤ place
    · rw [if_pos behind, dif_neg (by omega), List.getElem?_eq_getElem (by omega)]
      simp only [length, Option.getD_some]
    · rw [if_neg behind, dif_pos (by omega)]
      simp only [front, List.getElem_map, List.getElem_range]

/-- Room is made if and only if it is there or the allocator has it. -/
theorem reserve_cases (sized : 0 < buffer.layout.size) (wanted : Nat) (memory : Memory) :
    (wanted ≤ buffer.blockSize / buffer.layout.size ∨
        memory.Affords buffer.allocator [wanted * buffer.layout.size] →
      ∃ roomy between, buffer.reserve wanted memory = .ok roomy between) ∧
    (¬(wanted ≤ buffer.blockSize / buffer.layout.size ∨
        memory.Affords buffer.allocator [wanted * buffer.layout.size]) →
      ∃ cause after, buffer.reserve wanted memory = .error cause after ∧
        cause.IsShortage = true) := by
  rw [reserve_eq (Nat.ne_of_gt sized), ← Int.natCast_mul]
  by_cases spare : wanted ≤ buffer.blockSize / buffer.layout.size
  · rw [if_pos (Int.ofNat_le.mpr spare)]
    exact ⟨fun _ => ⟨buffer, memory, rfl⟩, fun scarce => absurd (.inl spare) scarce⟩
  · rw [if_neg (fun le => spare (Int.ofNat_le.mp le))]
    constructor
    · intro room
      have positive : 0 < wanted * buffer.layout.size :=
        Nat.mul_pos (Nat.lt_of_le_of_lt (Nat.zero_le _) (Nat.not_le.mp spare)) sized
      obtain ⟨extent, after, supplied, -⟩ :=
        Memory.allocate_of_affords positive (room.resolve_left spare)
      rw [supplied]
      exact ⟨_, _, rfl⟩
    · intro scarce
      cases ran : Memory.allocate buffer.allocator (wanted * buffer.layout.size : Nat) memory with
      | ok extent after => exact absurd (.inr (Memory.affords_of_allocate ran)) scarce
      | error cause after =>
          exact ⟨cause, after, rfl, Memory.shortage_of_allocate (Int.natCast_nonneg _) ran⟩

/-- The bytes are doubled if and only if there is room for them. -/
theorem appendBytes_cases (fits : memory.Fits buffer.allocator) (housed : buffer.Housed)
    (settled : buffer.Settled memory buffer.allocator) (sized : 0 < buffer.layout.size) :
    (buffer.RoomToDouble (2 * buffer.count * buffer.layout.size) memory → ∃ later after,
      buffer.appendBytes (buffer.content memory) memory = .ok later after ∧
        later.content after = buffer.content memory ++ buffer.content memory) ∧
    (¬buffer.RoomToDouble (2 * buffer.count * buffer.layout.size) memory → ∃ cause after,
      buffer.appendBytes (buffer.content memory) memory = .error cause after ∧
        cause.IsShortage = true) := by
  have room : buffer.count ≤ buffer.blockSize :=
    Nat.le_trans (Nat.le_mul_of_pos_right _ sized) housed.room
  have length : (buffer.content memory).length = buffer.count := by
    rw [content_eq_map settled.held room, List.length_map, List.length_range]
  have doubled {later : Buffer} {after : Memory}
      (ran : buffer.appendBytes (buffer.content memory) memory = .ok later after) :
      later.content after = buffer.content memory ++ buffer.content memory :=
    content_of_appendBytes fits settled sized room ran
  by_cases empty : buffer.content memory = []
  · have none_counted : buffer.count = 0 := by rw [← length, empty, List.length_nil]
    refine ⟨fun _ => ⟨buffer, memory, ?_, ?_⟩, fun scarce => absurd (.inl ?_) scarce⟩
    · rw [empty]
      rfl
    · rw [empty]
      rfl
    · rw [none_counted]
      exact Nat.zero_le _
  · have ran := @appendBytes_eq buffer _ empty memory
    rw [length, ← Nat.two_mul] at ran
    obtain ⟨supplied, refused⟩ := reserve_cases sized (2 * buffer.count) memory
    constructor
    · intro room
      obtain ⟨roomy, between, reserved⟩ := supplied room
      rw [reserved] at ran
      exact ⟨_, _, ran, doubled ran⟩
    · intro scarce
      obtain ⟨cause, after, denied, short⟩ := refused scarce
      rw [denied] at ran
      exact ⟨cause, after, ran, short⟩

end LexKit.Buffer
