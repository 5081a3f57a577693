import LexKit.Proofs.Buffer.Elements

/-!
# Rejected values

What is left of a write when the item rejects the value. The place of the element was cleared by
then. So an element that was to be replaced is lost, and the others are kept; a value that was to be
appended leaves all elements as they were, as the place behind them is none of theirs. A place that
is not one of an element is noticed before anything is written.
-/

set_option autoImplicit false

namespace LexKit

theorem FieldType.length_residue_le_size (type : FieldType) (bigEndian : Bool) (value : Value) :
    (type.residue bigEndian value).length ≤ type.size := by
  unfold residue
  split
  · split
    · rw [length_orderedBytes]
      exact Nat.le_refl 8
    · exact Nat.zero_le _
  · exact Nat.zero_le _

def Layout.spoiled (layout : Layout) (value : Value) : Value :=
  match layout.singleItem? with
  | some (_, type) =>
      type.decode layout.bigEndian
        ((type.residue layout.bigEndian value ++ List.replicate type.size 0).take type.size)
  | none => .none

structure Layout.Rejects (layout : Layout) (value : Value) (refusal : Fault) (offset : Nat)
    (type : FieldType) : Prop where
  single : layout.singleItem? = some (offset, type)
  rejected : type.encode layout.isNative layout.bigEndian value = .error refusal

namespace Buffer

open Running

variable {buffer : Buffer} {memory after : Memory} {value : Value} {refusal : Fault} {offset : Nat}
  {type : FieldType}

theorem store_rejected {extent : Extent}
    (rejects : buffer.layout.Rejects value refusal offset type)
    (block : buffer.block = some extent) (index : Nat) (memory : Memory) :
    ∃ place opened, buffer.openPlace index memory = .ok place opened ∧
      buffer.fill place value opened = .error refusal
        (buffer.storeAt index offset (type.residue buffer.layout.bigEndian value) memory) := by
  refine ⟨⟨extent.storage, buffer.elementStart extent index + offset, type⟩,
    buffer.clearAt (index * buffer.layout.size) buffer.layout.size memory, ?_, ?_⟩
  · simp only [openPlace, block, rejects.single, run_bind, run_modify, run_pure, clearAt,
      elementStart]
  · simp only [fill, rejects.rejected, run_bind, run_modify, run_throw, storeAt, writeAt, block,
      elementStart, Nat.add_assoc]

/-- Replacing needs no room, so the fault is the refusal of the value itself. -/
theorem set_rejected {index : Quantity} {place : Nat} (housed : buffer.Housed)
    (rejects : buffer.layout.Rejects value refusal offset type)
    (named : buffer.checkIndex index = .ok place) (memory : Memory) :
    buffer.set index value memory = .error refusal
      (buffer.storeAt place offset (type.residue buffer.layout.bigEndian value) memory) := by
  have inside := checkIndex_lt named
  obtain ⟨extent, block⟩ := housed.block_of_count (Nat.zero_lt_of_lt inside)
  obtain ⟨spot, opened, opening, filling⟩ := store_rejected rejects block place memory
  simp only [set, openAt, named, run_bind, opening, filling]

/-- A rejected replacement clears the item before it looks at the value. What the element shows is
spoiled, and all other elements stay. -/
theorem elements_set_rejected {place : Nat} (housed : buffer.Housed) (held : buffer.Held memory)
    (rejects : buffer.layout.Rejects value refusal offset type) (inside : place < buffer.count) :
    buffer.elements
        (buffer.storeAt place offset (type.residue buffer.layout.bigEndian value) memory) =
      (buffer.elements memory).set place (buffer.layout.spoiled value) := by
  have size_le := housed.read.size_le rejects.single
  have short := type.length_residue_le_size buffer.layout.bigEndian value
  rw [elements_storeAt housed held rejects.single inside (by omega), Layout.spoiled,
    rejects.single]

theorem set_unnamed {index : Quantity} {cause : Fault}
    (single : buffer.layout.singleItem? = some (offset, type))
    (unnamed : buffer.checkIndex index = .error cause) (value : Value) (memory : Memory) :
    buffer.set index value memory = .error cause memory := by
  cases cause with
  | wrongType =>
      simp only [set, openAt, unnamed, misplacedFault, single, Option.isNone_some, run_bind,
        run_throw, Bool.false_eq_true, ↓reduceIte]
  | _ => simp only [set, openAt, unnamed, run_bind, run_throw]

/-- The elements that are pushed to may move. They stay what they were where there is room for one
more, or where the allocator does not hand out their own block to them. -/
def Lasting (buffer : Buffer) (memory : Memory) : Prop :=
  buffer.count < buffer.blockSize / buffer.layout.size ∨
    buffer.Settled memory buffer.allocator

theorem elements_makeRoom {roomy : Buffer} {between : Memory} (fits : memory.Fits buffer.allocator)
    (housed : buffer.Housed) (lasting : buffer.Lasting memory)
    (made : buffer.makeRoom memory = .ok roomy between) :
    roomy.elements between = buffer.elements memory := by
  have room := roomed_makeRoom fits housed
  rw [made] at room
  obtain ⟨sized, reserved⟩ := room
  rcases lasting with spare | settled
  · rw [makeRoom_eq sized, if_neg (Nat.ne_of_lt spare)] at made
    cases made
    rfl
  · exact reserved.elements_eq housed settled

/-- What comes of pushing a rejected value: a fault, and the elements that there were. -/
structure PushRejected (buffer : Buffer) (memory : Memory) (refusal cause : Fault)
    (state : BufferState) : Prop where
  cause : cause = refusal ∨ ∃ after, buffer.makeRoom memory = .error cause after
  count_eq : state.buffer.count = buffer.count
  elements_eq : buffer.Lasting memory →
    state.buffer.elements state.memory = buffer.elements memory

/-- A push of a value that its item cannot hold fails, but room is made before the value is looked
at. The failure may be one of memory for this reason. -/
theorem push_rejected (fits : memory.Fits buffer.allocator) (housed : buffer.Housed)
    (held : buffer.Held memory) (rejects : buffer.layout.Rejects value refusal offset type) :
    ∃ cause state, BufferM.push value ⟨buffer, memory⟩ = .error cause state ∧
      PushRejected buffer memory refusal cause state := by
  have room := roomed_makeRoom fits housed
  rw [push_eq]
  cases made : buffer.makeRoom memory with
  | error cause after =>
      rw [made] at room
      refine ⟨cause, ⟨buffer, after⟩, rfl, .inr ⟨after, made⟩, rfl, fun _ => ?_⟩
      exact elements_of_changes room housed held
  | ok roomy between =>
      have kept := fun lasting => elements_makeRoom fits housed lasting made
      rw [made] at room
      obtain ⟨sized, reserved⟩ := room
      have layout := reserved.advance.make.layout_eq
      have roomyHoused := reserved.still_housed housed
      have space := reserved.room_le
      rw [layout] at space
      obtain ⟨extent, block⟩ : ∃ extent, roomy.block = some extent := by
        cases block : roomy.block with
        | some extent => exact ⟨extent, rfl⟩
        | none =>
            rw [blockSize_of_no_block block, Nat.succ_mul] at space
            omega
      rw [← layout] at rejects
      obtain ⟨place, opened, opening, filling⟩ := store_rejected rejects block roomy.count between
      simp only [opening, filling]
      refine ⟨refusal, ⟨roomy, _⟩, rfl, .inl rfl, reserved.count_eq, fun lasting => ?_⟩
      exact (elements_storeAt_count roomyHoused (reserved.held held) _).trans (kept lasting)

end Buffer

end LexKit
