import LexKit.Proofs.Buffer.Rereading

/-!
# Reading a buffer that is pushed to

A loop over the elements of a buffer reads the block that the buffer had at the beginning, also when
the buffer has moved to another one and the block was given back. What is pushed meanwhile comes to
stand behind the elements that there were, in the old block as in the new one, and the allocator
does not hand out the old one again. So the loop reads what the buffer listed at the beginning.
-/

set_option autoImplicit false

namespace LexKit

open Running

/-- Pushes and requests for room lead from the first state to the other, failed ones included. -/
inductive BufferState.LeadsTo (first : BufferState) : BufferState → Prop where
  | start : LeadsTo first first
  | push {state : BufferState} (value : Value) :
      LeadsTo first state → LeadsTo first (final (BufferM.push value state))
  | reserve {state : BufferState} (capacity : Int) :
      LeadsTo first state → LeadsTo first (final (BufferM.reserve capacity state))

namespace Buffer

variable {buffer later last source : Buffer} {memory after base : Memory} {value : Value}
  {values : List Value} {extent : Extent} {state : BufferState}

/-! ## What is behind the elements -/

/-- The elements that there were are not touched, whatever became of the buffer. -/
structure Prolonged (buffer : Buffer) (memory : Memory) (later : Buffer) (after : Memory) :
    Prop where
  advance : Advance (buffer.Tail (buffer.count * buffer.layout.size)) buffer memory later after
  housed : later.Housed
  count_le : buffer.count ≤ later.count

namespace Prolonged

theorem refl (housed : buffer.Housed) (memory : Memory) : Prolonged buffer memory buffer memory :=
  ⟨.refl _ buffer memory, housed, Nat.le_refl _⟩

/-- Operations that only prolong a buffer may follow each other: what the first one put behind the
end stays in front of what the second one puts there. -/
theorem trans (left : Prolonged buffer memory later after)
    (right : Prolonged later after last base) : Prolonged buffer memory last base := by
  refine ⟨left.advance.trans right.advance ?_, right.housed,
    Nat.le_trans left.count_le right.count_le⟩
  intro storage index known tail
  have behind : buffer.count * buffer.layout.size ≤ later.count * later.layout.size := by
    rw [left.advance.make.layout_eq]
    exact Nat.mul_le_mul_right _ left.count_le
  exact left.advance.tail_covers known (tail.mono behind)

theorem fits (prolonged : Prolonged buffer memory later after)
    (fits : memory.Fits buffer.allocator) : after.Fits later.allocator := by
  rw [prolonged.advance.make.allocator_eq]
  exact prolonged.advance.fits fits

theorem of_reserved {capacity : Int} (reserved : Reserved buffer memory capacity later after)
    (housed : buffer.Housed) : Prolonged buffer memory later after :=
  ⟨reserved.advance.mono fun _ _ untouched => untouched.elim, reserved.still_housed housed,
    Nat.le_of_eq reserved.count_eq.symm⟩

theorem of_untouched (housed : buffer.Housed)
    (changed : Memory.ChangesWithin (fun _ _ => False) memory after) :
    Prolonged buffer memory buffer after :=
  ⟨advance_of_changes buffer (changed.mono fun _ _ _ untouched => untouched.elim), housed,
    Nat.le_refl _⟩

end Prolonged

/-- What an operation made of a buffer, whether it succeeded or not. -/
def Prolongs {α : Type} (buffer : Buffer) (memory : Memory)
    (result : EStateM.Result Fault BufferState α) : Prop :=
  Prolonged buffer memory (final result).buffer (final result).memory

theorem prolongs_reserve (fits : memory.Fits buffer.allocator) (housed : buffer.Housed)
    (capacity : Int) : Prolongs buffer memory (BufferM.reserve capacity ⟨buffer, memory⟩) := by
  have room := roomed_reserve fits capacity
  unfold Prolongs BufferM.reserve BufferM.replace
  dsimp only
  cases made : buffer.reserve capacity memory with
  | ok roomy between =>
      rw [made] at room
      exact .of_reserved room.2 housed
  | error fault between =>
      rw [made] at room
      exact .of_untouched housed room

/-- Whether a value is taken or not, only the place of the element is written to. -/
theorem changesWithin_fill {index : Nat} {place : ItemPlace} (snug : buffer.layout.Snug)
    (sized : 0 < buffer.layout.size) (room : (index + 1) * buffer.layout.size ≤ buffer.blockSize)
    (ran : buffer.openPlace index memory = .ok place after) (value : Value) :
    Memory.ChangesWithin (buffer.Tail (index * buffer.layout.size)) memory
      (final (buffer.fill place value after)) := by
  rcases openPlace_cases buffer index memory with refused |
    ⟨extent, offset, type, block, single, opened⟩
  · rw [refused] at ran
    cases ran
  · rw [opened] at ran
    cases ran
    rw [Nat.succ_mul] at room
    have cleared := @changesWithin_clearAt buffer (index * buffer.layout.size) buffer.layout.size
      room memory
    obtain ⟨bytes, short, same⟩ := final_fill buffer
      ⟨extent.storage, buffer.elementStart extent index + offset, type⟩ value
      (buffer.clearAt (index * buffer.layout.size) buffer.layout.size memory)
    rw [same]
    refine cleared.trans (Memory.changesWithin_write _ extent.storage _ bytes) ?_
    rintro storage byte - ⟨rfl, above, below⟩
    have written_le := snug sized single
    rw [blockSize_of_block block] at room
    dsimp only at short
    simp only [elementStart] at above below
    exact ⟨extent, block, rfl, by omega, by rw [Extent.stop]; omega⟩

theorem prolongs_push (fits : memory.Fits buffer.allocator) (housed : buffer.Housed)
    (snug : buffer.layout.Snug) (value : Value) :
    Prolongs buffer memory (BufferM.push value ⟨buffer, memory⟩) := by
  have room := roomed_makeRoom fits housed
  unfold Prolongs
  rw [push_eq]
  cases made : buffer.makeRoom memory with
  | error fault between =>
      rw [made] at room
      exact .of_untouched housed room
  | ok roomy between =>
      rw [made] at room
      obtain ⟨sized, reserved⟩ := room
      have first : Prolonged buffer memory roomy between := .of_reserved reserved housed
      have space := reserved.room_le
      have counted := reserved.housed housed sized
      rw [← reserved.count_eq] at space counted
      rw [← reserved.advance.make.layout_eq] at sized snug
      dsimp only
      cases opening : roomy.openPlace roomy.count between with
      | error fault between =>
          obtain ⟨-, rfl⟩ := openPlace_error opening
          exact first
      | ok place opened =>
          have wrote := changesWithin_fill snug sized space opening value
          have second : Prolonged roomy between roomy (final (roomy.fill place value opened)) :=
            ⟨advance_of_changes roomy wrote, first.housed, Nat.le_refl _⟩
          have both := first.trans second
          dsimp only
          cases filling : roomy.fill place value opened with
          | error fault after =>
              rw [filling] at both
              exact both
          | ok done after =>
              rw [filling] at both
              exact ⟨both.advance.recount _, counted, Nat.le_succ_of_le both.count_le⟩

theorem prolonged_of_leadsTo (fits : memory.Fits buffer.allocator) (housed : buffer.Housed)
    (snug : buffer.layout.Snug) (leads : BufferState.LeadsTo ⟨buffer, memory⟩ state) :
    Prolonged buffer memory state.buffer state.memory := by
  induction leads with
  | start => exact .refl housed memory
  | push value _ ih =>
      have still := snug
      rw [← ih.advance.make.layout_eq] at still
      exact ih.trans (prolongs_push (ih.fits fits) ih.housed still value)
  | reserve capacity _ ih =>
      exact ih.trans (prolongs_reserve (ih.fits fits) ih.housed capacity)

/-! ## What the loop reads -/

/-- A buffer that can be listed: what it shows comes from bytes that its allocator does not have. -/
structure Listed (source : Buffer) (base : Memory) : Prop where
  housed : source.Housed
  settled : source.Settled base source.allocator
  single : ∃ item, source.layout.singleItem? = some item
  readable : source.layout.isReadable = true

/-- A list with elements comes from a buffer that can be listed. -/
theorem listed_of_toList (housed : buffer.Housed)
    (settled : buffer.Settled memory buffer.allocator) (counts : 0 < buffer.count)
    (ran : buffer.toList memory = .ok values after) : buffer.Listed memory := by
  obtain ⟨extent, block⟩ := housed.block_of_count counts
  obtain ⟨more, count⟩ := Nat.exists_eq_succ_of_ne_zero (Nat.ne_of_gt counts)
  unfold toList at ran
  simp only [block, count, List.range_succ_eq_map, List.mapM_cons] at ran
  obtain ⟨value, between, first, -⟩ := bind_eq_ok ran
  rw [element_answer] at first
  unfold elementFound at first
  cases readable : buffer.layout.isReadable with
  | false =>
      rw [readable] at first
      cases first
  | true =>
      cases single : buffer.layout.singleItem? with
      | none =>
          rw [readable, single] at first
          cases first
      | some item => exact ⟨housed, settled, ⟨item, single⟩, readable⟩

namespace Listed

theorem snug (listed : Listed source base) : source.layout.Snug := by
  intro sized offset type single
  obtain ⟨run, member, same⟩ := Layout.mem_of_singleItem? single
  have counted : type ≠ .countedBytes 0 := by
    have all := List.all_eq_true.mp listed.readable run member
    rw [same] at all
    simpa using all
  rw [FieldType.written_eq_size counted]
  exact listed.housed.read.size_le single

theorem slot_eq (listed : Listed source base) (prolonged : Prolonged source base later after)
    {index : Nat} (inside : index < source.count) :
    source.slot after index = source.slot base index := by
  obtain ⟨extent, block⟩ := listed.housed.block_of_count (Nat.zero_lt_of_lt inside)
  have room := listed.housed.room
  have settled := listed.settled extent block
  rw [blockSize_of_block block] at room
  apply slot_of_bytes listed.housed.read rfl
  intro place _ below
  have within : (index + 1) * source.layout.size ≤ source.count * source.layout.size :=
    Nat.mul_le_mul_right _ inside
  rw [byteAt_of_block block, byteAt_of_block block, if_pos (by omega), if_pos (by omega)]
  apply prolonged.advance.changed.byte_eq _ _ settled.holds.storage_lt
  rintro (⟨own, known, -, above, -⟩ | remains)
  · cases block.symm.trans known
    omega
  · have covered : extent.Covers extent.storage (extent.start + place) :=
      ⟨rfl, Nat.le_add_right _ _, by rw [Extent.stop]; omega⟩
    exact settled.taken _ _ covered remains

theorem element_eq (listed : Listed source base) (prolonged : Prolonged source base later after)
    (block : source.block = some extent) {index : Nat} (inside : index < source.count) :
    source.element extent index after = .ok (source.slot base index) after := by
  obtain ⟨⟨offset, type⟩, single⟩ := listed.single
  have size_le := listed.housed.read.size_le single
  have room := Nat.le_trans (Nat.mul_le_mul_right source.layout.size inside) listed.housed.room
  rw [blockSize_of_block block, Nat.succ_mul] at room
  have holds := prolonged.advance.changed.holds (listed.settled extent block).holds
  rw [← listed.slot_eq prolonged inside, element_answer, elementFound, listed.readable, single]
  simp only [Bool.not_true, Bool.false_eq_true, ↓reduceIte, answer, slot, single]
  rw [load_eq_itemBytes block holds (by omega)]

/-- Each element is read as it was at the beginning, so that the loop is one over fixed values. -/
theorem extendFrom_eq (listed : Listed source base) (fits : base.Fits source.allocator)
    (block : source.block = some extent) {index count : Nat} (within : index + count ≤ source.count)
    (prolonged : Prolonged source base buffer memory) :
    BufferM.extendFrom source extent index count ⟨buffer, memory⟩ =
      BufferM.extend ((List.range' index count).map (source.slot base)) ⟨buffer, memory⟩ := by
  induction count generalizing index buffer memory with
  | zero => rfl
  | succ count ih =>
      rw [extendFrom_succ, listed.element_eq prolonged block (by omega), List.range'_succ,
        List.map_cons, extend_cons]
      dsimp only
      have still := listed.snug
      rw [← prolonged.advance.make.layout_eq] at still
      have pushes := prolongs_push (prolonged.fits fits) prolonged.housed still
        (source.slot base index)
      cases ran : BufferM.push (source.slot base index) ⟨buffer, memory⟩ with
      | error fault state => rfl
      | ok done state =>
          unfold Prolongs at pushes
          rw [ran] at pushes
          exact ih (by omega) (prolonged.trans pushes)

/-- A buffer that is extended by itself takes what it listed at the beginning. -/
theorem extendBy_eq (listed : Listed source base) (fits : base.Fits source.allocator) :
    BufferM.extendBy source ⟨source, base⟩ =
      BufferM.extend (source.elements base) ⟨source, base⟩ := by
  unfold BufferM.extendBy elements
  cases block : source.block with
  | none =>
      rw [listed.housed.count_of_no_block block]
      rfl
  | some extent =>
      rw [List.range_eq_range']
      exact listed.extendFrom_eq fits block (Nat.le_of_eq (Nat.zero_add _))
        (.refl listed.housed base)

end Listed

end Buffer

end LexKit
