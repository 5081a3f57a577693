import LexKit.Buffer.Operation
import LexKit.Proofs.Buffer.Slots

/-!
# Pushing

Operations that need room, on a buffer and on the slots that it shows. Each of them does what it
does to the slots, unless the allocator runs short. Extending a buffer by another one, or by itself,
reads a block that the pushes in between do not touch.
-/

set_option autoImplicit false

namespace LexKit

/-- The action succeeded in the given way, unless memory was short. -/
def Supplied {State α : Type} (result : EStateM.Result Fault State α)
    (good : α → State → Prop) : Prop :=
  match result with
  | .ok value after => good value after
  | .error fault _ => fault.IsShortage = true

theorem Supplied.imp {State α : Type} {result : EStateM.Result Fault State α}
    {good better : α → State → Prop} (supplied : Supplied result good)
    (implies : ∀ value after, good value after → better value after) : Supplied result better := by
  cases result with
  | ok value after => exact implies value after supplied
  | error fault after => exact supplied

theorem Supplied.replace {buffer : Buffer} {memory : Memory} {action : Buffer → MemoryM Buffer}
    {good : Buffer → Memory → Prop} (supplied : Supplied (action buffer memory) good) :
    Supplied (BufferM.replace action ⟨buffer, memory⟩) fun _ state =>
      good state.buffer state.memory := by
  unfold BufferM.replace
  dsimp only
  cases ran : action buffer memory with
  | ok later after =>
      rw [ran] at supplied
      exact supplied
  | error fault after =>
      rw [ran] at supplied
      exact supplied

namespace Buffer

open Running

/-- What an operation finds: the region that the allocator has left lies in a storage, and apart
from the block. -/
structure Ready (buffer : Buffer) (memory : Memory) : Prop where
  fits : memory.Fits buffer.allocator
  settled : buffer.Settled memory buffer.allocator

variable {buffer later : Buffer} {memory after : Memory} {slots more : Slots}

theorem Advance.ready {touched : StorageId → Nat → Prop}
    (advance : Advance touched buffer memory later after) (ready : buffer.Ready memory) :
    later.Ready after := by
  have same := advance.make.allocator_eq
  refine ⟨?_, ?_⟩
  · rw [same]
    exact advance.fits ready.fits
  · rw [same]
    exact advance.settled ready.settled

theorem Ready.holds (ready : buffer.Ready memory) {extent : Extent}
    (known : buffer.block = some extent) : memory.Holds extent :=
  (ready.settled extent known).holds

/-! ## Room -/

theorem supplied_reserve (ready : buffer.Ready memory) (sized : 0 < buffer.layout.size)
    (capacity : Int) :
    Supplied (buffer.reserve capacity memory) fun later after =>
      Reserved buffer memory capacity later after := by
  cases ran : buffer.reserve capacity memory with
  | ok later after => exact reserved_of_reserve ready.fits ran
  | error fault after =>
      rw [reserve_eq (Nat.ne_of_gt sized)] at ran
      split at ran
      · cases ran
      · rename_i short
        have natural : 0 ≤ capacity :=
          Int.le_of_lt (Int.lt_of_le_of_lt (Int.natCast_nonneg _) (Int.not_le.mp short))
        split at ran
        · cases ran
        · rename_i refused
          cases ran
          exact Memory.shortage_of_allocate
            (Int.mul_nonneg natural (Int.natCast_nonneg _)) refused

/-- Making room does not change what the buffer shows. The bytes are in another block, at the same
places in it. -/
theorem Reserved.shows {capacity : Int} (reserved : Reserved buffer memory capacity later after)
    (ready : buffer.Ready memory) (shows : buffer.Shows memory slots) :
    later.Shows after slots := by
  obtain ⟨offset, type, contains⟩ := shows.contains
  have make := reserved.advance.make
  refine ⟨make.role_eq.trans shows.role_eq, make.layout_eq.trans shows.layout_eq,
    reserved.count_eq.trans shows.count_eq, ?_, ?_, shows.regular⟩
  · intro index
    rw [slot_congr contains make.layout_eq fun place _ _ =>
      reserved.byteAt_eq ready.settled place,
      shows.slot_eq]
  · rw [reserved.count_eq, make.layout_eq]
    exact Nat.le_trans shows.room reserved.blockSize_le

theorem Reserved.acts {capacity : Int} (reserved : Reserved buffer memory capacity later after)
    (ready : buffer.Ready memory) (shows : buffer.Shows memory slots) (first : Nat) :
    Acts first buffer memory later after slots :=
  ⟨reserved.advance.mono fun _ _ untouched => untouched.elim, reserved.blockSize_le,
    reserved.shows ready shows⟩

theorem capacity_eq (sized : 0 < buffer.layout.size) :
    buffer.capacity = .ok (buffer.blockSize / buffer.layout.size) := by
  rw [capacity, if_neg (Nat.ne_of_gt sized)]

theorem makeRoom_eq (sized : 0 < buffer.layout.size) (memory : Memory) :
    buffer.makeRoom memory =
      if buffer.count = buffer.blockSize / buffer.layout.size then
        buffer.reserve (max leastGrowth (2 * (buffer.blockSize / buffer.layout.size : Nat))) memory
      else .ok buffer memory := by
  simp only [makeRoom, capacity_eq sized, run_bind, run_ofExcept_ok, run_ite, run_pure]

theorem Reserved.of_full (full : buffer.count = buffer.blockSize / buffer.layout.size)
    (reserved : Reserved buffer memory
      (max leastGrowth (2 * (buffer.blockSize / buffer.layout.size : Nat))) later after) :
    Reserved buffer memory (buffer.count + 1 : Nat) later after := by
  refine ⟨reserved.advance, reserved.count_eq, ?_, reserved.blockSize_le, reserved.held,
    reserved.byteAt_eq⟩
  have more : ((buffer.count + 1 : Nat) : Int) ≤
      max (leastGrowth : Int) (2 * (buffer.blockSize / buffer.layout.size : Nat)) := by
    rw [← full, leastGrowth]
    omega
  exact Int.le_trans (Int.mul_le_mul_of_nonneg_right more (Int.natCast_nonneg _)) reserved.room

theorem Reserved.of_unfilled (sized : 0 < buffer.layout.size)
    (room : buffer.count * buffer.layout.size ≤ buffer.blockSize)
    (unfilled : buffer.count ≠ buffer.blockSize / buffer.layout.size) (memory : Memory) :
    Reserved buffer memory (buffer.count + 1 : Nat) buffer memory := by
  refine ⟨.refl _ buffer memory, rfl, ?_, Nat.le_refl _, fun held => held, fun _ _ => rfl⟩
  have within : buffer.count ≤ buffer.blockSize / buffer.layout.size :=
    (Nat.le_div_iff_mul_le sized).mpr room
  have more : (buffer.count + 1) * buffer.layout.size ≤ buffer.blockSize :=
    (Nat.le_div_iff_mul_le sized).mp (by omega)
  exact_mod_cast more

theorem supplied_makeRoom (ready : buffer.Ready memory) (shows : buffer.Shows memory slots) :
    Supplied (buffer.makeRoom memory) fun later after =>
      Reserved buffer memory (buffer.count + 1 : Nat) later after := by
  obtain ⟨offset, type, contains⟩ := shows.contains
  have positive := contains.positive
  rw [makeRoom_eq positive]
  split
  · rename_i full
    exact (supplied_reserve ready positive _).imp fun later after reserved => reserved.of_full full
  · rename_i unfilled
    exact .of_unfilled positive shows.room unfilled memory

/-! ## One value -/

theorem push_eq (value : Value) :
    BufferM.push value ⟨buffer, memory⟩ =
      match buffer.makeRoom memory with
      | .error fault after => .error fault ⟨buffer, after⟩
      | .ok roomy between =>
          match roomy.openPlace roomy.count between with
          | .error fault after => .error fault ⟨roomy, after⟩
          | .ok place opened =>
              match roomy.fill place value opened with
              | .error fault after => .error fault ⟨roomy, after⟩
              | .ok _ after => .ok () ⟨{ roomy with count := roomy.count + 1 }, after⟩ := by
  simp only [BufferM.push, BufferM.openNext, BufferM.replace, BufferM.observe, BufferM.fill,
    BufferM.countUp, run_bind]
  cases buffer.makeRoom memory with
  | error fault after => rfl
  | ok roomy between =>
      dsimp only
      cases roomy.openPlace roomy.count between with
      | error fault after => rfl
      | ok place opened =>
          dsimp only
          cases roomy.fill place value opened with
          | error fault after => rfl
          | ok done after => rfl

/-- Storing one element is one write among the slots that the buffer shows. -/
theorem Stored.shows {index : Nat} {kept : Value} (stored : Stored buffer memory index kept after)
    (shows : buffer.Shows memory slots) : buffer.Shows after (slots.write index kept) := by
  refine ⟨shows.role_eq, shows.layout_eq, shows.count_eq, ?_, shows.room,
    ⟨shows.regular.contains, shows.regular.text⟩⟩
  intro other
  rw [stored.slot_eq, shows.slot_eq]
  rfl

theorem Shows.recount (shows : buffer.Shows memory slots) {count : Nat}
    (room : count * buffer.layout.size ≤ buffer.blockSize) :
    Shows { buffer with count } memory { slots with count } :=
  ⟨shows.role_eq, shows.layout_eq, rfl, shows.slot_eq, room,
    ⟨shows.regular.contains, shows.regular.text⟩⟩

theorem Acts.recount {first count : Nat} (acts : Acts first buffer memory later after slots)
    (room : count * later.layout.size ≤ later.blockSize) :
    Acts first buffer memory { later with count } after { slots with count } :=
  ⟨acts.advance.recount count, acts.blockSize_le, acts.shows.recount room⟩

theorem supplied_push {value : Value} (ready : buffer.Ready memory)
    (shows : buffer.Shows memory slots) (pushed : slots.push? value = some more) :
    Supplied (BufferM.push value ⟨buffer, memory⟩) fun _ state =>
      Acts (buffer.count * buffer.layout.size) buffer memory state.buffer state.memory more := by
  obtain ⟨kept, taken, rfl⟩ := Slots.push?_eq_some pushed
  have room := supplied_makeRoom ready shows
  rw [push_eq]
  cases made : buffer.makeRoom memory with
  | error fault after =>
      rw [made] at room
      exact room
  | ok roomy between =>
      rw [made] at room
      have reserved : Reserved buffer memory (buffer.count + 1 : Nat) roomy between := room
      have acts := reserved.acts ready shows (buffer.count * buffer.layout.size)
      have make := reserved.advance.make
      obtain ⟨offset, type, contains⟩ := acts.shows.contains
      have space : (roomy.count + 1) * roomy.layout.size ≤ roomy.blockSize := by
        rw [reserved.count_eq, make.layout_eq]
        exact_mod_cast reserved.room
      rw [← acts.shows.layout_eq] at taken
      obtain ⟨bytes, place, opened, opening, filling, length, stands⟩ :=
        store_of_kept? between contains space taken
      have readyThen := acts.advance.ready ready
      have stored := stored_of_storeAt contains (fun _ => readyThen.holds) space length stands
      have wrote : Acts (roomy.count * roomy.layout.size) roomy between roomy
          (roomy.storeAt roomy.count offset bytes between) (slots.write slots.count kept) := by
        rw [← acts.shows.count_eq]
        exact ⟨stored.advance, Nat.le_refl _, stored.shows acts.shows⟩
      have both := acts.trans wrote (Nat.le_of_eq (by rw [reserved.count_eq, make.layout_eq]))
      have counted := both.recount space
      rw [acts.shows.count_eq] at counted
      simp only [opening, filling]
      rw [acts.shows.count_eq]
      exact counted

/-! ## Many values -/

theorem extend_cons (value : Value) (rest : List Value) (state : BufferState) :
    BufferM.extend (value :: rest) state =
      match BufferM.push value state with
      | .ok _ between => BufferM.extend rest between
      | .error fault after => .error fault after := by
  rw [BufferM.extend, run_bind]
  cases BufferM.push value state <;> rfl

theorem Acts.count_mul_le {first : Nat} {next : Slots}
    (acts : Acts first buffer memory later after next)
    (grown : buffer.count ≤ next.count) :
    buffer.count * buffer.layout.size ≤ later.count * later.layout.size := by
  rw [acts.shows.count_eq, acts.advance.make.layout_eq]
  exact Nat.mul_le_mul_right _ grown

theorem supplied_extend {values : List Value} (ready : buffer.Ready memory)
    (shows : buffer.Shows memory slots) (extended : slots.extend? values = some more) :
    Supplied (BufferM.extend values ⟨buffer, memory⟩) fun _ state =>
      Acts (buffer.count * buffer.layout.size) buffer memory state.buffer state.memory more := by
  induction values generalizing buffer memory slots with
  | nil =>
      cases extended
      exact ⟨.refl _ buffer memory, Nat.le_refl _, shows⟩
  | cons value rest ih =>
      obtain ⟨next, pushed, behind⟩ := Option.bind_eq_some_iff.mp extended
      have first := supplied_push ready shows pushed
      rw [extend_cons]
      cases ran : BufferM.push value ⟨buffer, memory⟩ with
      | error fault after =>
          rw [ran] at first
          exact first
      | ok done state =>
          rw [ran] at first
          obtain ⟨later, after⟩ := state
          have acts :
              Acts (buffer.count * buffer.layout.size) buffer memory later after next := first
          have grown : buffer.count ≤ next.count := by
            obtain ⟨kept, -, rfl⟩ := Slots.push?_eq_some pushed
            rw [shows.count_eq]
            exact Nat.le_succ _
          refine (ih (acts.advance.ready ready) acts.shows behind).imp fun _ state last => ?_
          exact acts.trans last (acts.count_mul_le grown)

end Buffer

end LexKit
