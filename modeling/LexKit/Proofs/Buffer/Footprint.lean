import LexKit.Proofs.Buffer.Ownership

/-!
# Footprints

What an operation on a buffer can reach, whatever it gives: also when a value is rejected after room
was made for it, or when memory runs short in the middle of an extension. It leaves the buffer with
room for all that it counts, in a block that lies in a storage. It touches bytes of its own block
and bytes that its allocator had left; only where values are written, what is written for a value
has to stay in the element for that.
-/

set_option autoImplicit false

namespace LexKit

namespace Running

variable {Fault State α β : Type}

/-- The state behind an action, whether it gave a result or a fault. -/
def final : EStateM.Result Fault State α → State
  | .ok _ after => after
  | .error _ after => after

theorem final_map (change : α → β) (action : EStateM Fault State α) (state : State) :
    final ((change <$> action) state) = final (action state) := by
  rw [map_eq_pure_bind, run_bind]
  cases action state <;> rfl

theorem final_answer (found : Except Fault α) (state : State) :
    final (answer found state) = state := by
  cases found <;> rfl

theorem mapM_answer {action : α → EStateM Fault State β} {found : α → Except Fault β}
    {state : State} (asked : ∀ member, action member state = answer (found member) state)
    (members : List α) : members.mapM action state = answer (members.mapM found) state := by
  induction members with
  | nil => rfl
  | cons member rest ih =>
      rw [List.mapM_cons, List.mapM_cons, run_bind, asked]
      cases found member with
      | error fault => rfl
      | ok value =>
          change (rest.mapM action >>= fun values => pure (value :: values)) state = _
          rw [run_bind, ih]
          cases rest.mapM found <;> rfl

end Running

def Layout.IsRead (layout : Layout) : Prop :=
  ∃ pattern, Layout.ofPattern? pattern = some layout

theorem Layout.isRead_byteLayout : byteLayout.IsRead :=
  ⟨"B", by decide⟩

def Layout.Snug (layout : Layout) : Prop :=
  0 < layout.size → ∀ {offset type}, layout.singleItem? = some (offset, type) →
    offset + type.written ≤ layout.size

theorem FieldType.length_residue_le (type : FieldType) (bigEndian : Bool) (value : Value) :
    (type.residue bigEndian value).length ≤ type.written := by
  unfold residue
  split
  · split
    · rw [length_orderedBytes]
      exact Nat.le_refl 8
    · exact Nat.zero_le _
  · exact Nat.zero_le _

namespace Buffer

open Running

variable {snug : Prop} {buffer later last : Buffer} {memory after final : Memory}

/-- The block has room for all elements that count. Elements without bytes never count. -/
structure Housed (buffer : Buffer) : Prop where
  read : buffer.layout.IsRead
  room : buffer.count * buffer.layout.size ≤ buffer.blockSize
  unsized : buffer.layout.size = 0 → buffer.count = 0

theorem Housed.of_empty (read : buffer.layout.IsRead) (empty : buffer.count = 0) :
    buffer.Housed := by
  refine ⟨read, ?_, fun _ => empty⟩
  rw [empty, Nat.zero_mul]
  exact Nat.zero_le _

theorem Housed.recount (housed : buffer.Housed) (sized : 0 < buffer.layout.size) {count : Nat}
    (room : count * buffer.layout.size ≤ buffer.blockSize) : Housed { buffer with count } :=
  ⟨housed.read, room, fun unsized => absurd unsized (Nat.ne_of_gt sized)⟩

theorem Housed.block_of_count (housed : buffer.Housed) (counts : 0 < buffer.count) :
    ∃ extent, buffer.block = some extent := by
  cases block : buffer.block with
  | some extent => exact ⟨extent, rfl⟩
  | none =>
      have room := housed.room
      rw [blockSize_of_no_block block] at room
      rcases Nat.mul_eq_zero.mp (Nat.eq_zero_of_le_zero room) with empty | unsized
      · exact absurd empty (Nat.ne_of_gt counts)
      · exact absurd (housed.unsized unsized) (Nat.ne_of_gt counts)

theorem Housed.count_of_no_block (housed : buffer.Housed) (absent : buffer.block = none) :
    buffer.count = 0 := by
  refine Nat.eq_zero_of_not_pos fun counts => ?_
  obtain ⟨extent, known⟩ := housed.block_of_count counts
  rw [absent] at known
  cases known

/-- The byte belongs to the block, as far as `snug` holds. Otherwise it may be any byte. -/
def Reach (snug : Prop) (buffer : Buffer) (storage : StorageId) (index : Nat) : Prop :=
  snug → buffer.Tail 0 storage index

/-- `buffer` in `memory` became `later` in `after`. As far as `snug` holds, nothing was touched but
its own bytes. -/
structure Confined (snug : Prop) (buffer : Buffer) (memory : Memory) (later : Buffer)
    (after : Memory) : Prop where
  advance : Advance (buffer.Reach snug) buffer memory later after
  housed : later.Housed
  held : buffer.Held memory → later.Held after

namespace Confined

theorem refl (housed : buffer.Housed) (memory : Memory) :
    Confined snug buffer memory buffer memory :=
  ⟨.refl _ buffer memory, housed, fun held => held⟩

/-- Operations that keep to the buffer may follow each other. The second one is confined to what the
first one left, which is no more than there was or was new. -/
theorem trans (left : Confined snug buffer memory later after)
    (right : Confined snug later after last final) :
    Confined snug buffer memory last final := by
  refine ⟨left.advance.trans right.advance ?_, right.housed, ?_⟩
  · intro storage index known reach
    by_cases sure : snug
    · exact (left.advance.tail_covers known (reach sure)).imp_left fun tail _ => tail
    · exact .inl fun also => absurd also sure
  · exact fun held => right.held (left.held held)

theorem of_changes (housed : buffer.Housed)
    (changed : Memory.ChangesWithin (buffer.Reach snug) memory after) :
    Confined snug buffer memory buffer after :=
  ⟨advance_of_changes buffer changed, housed,
    fun held extent known => changed.holds (held extent known)⟩

theorem of_untouched (housed : buffer.Housed)
    (changed : Memory.ChangesWithin (fun _ _ => False) memory after) :
    Confined snug buffer memory buffer after :=
  of_changes housed (changed.mono fun _ _ _ untouched => untouched.elim)

theorem recount {count : Nat} (confined : Confined snug buffer memory later after)
    (housed : Housed { later with count }) :
    Confined snug buffer memory { later with count } after :=
  ⟨confined.advance.recount count, housed, confined.held⟩

theorem weaken {less : Prop} (confined : Confined snug buffer memory later after)
    (implies : less → snug) : Confined less buffer memory later after :=
  ⟨confined.advance.mono fun _ _ reach also => reach (implies also), confined.housed,
    confined.held⟩

/-- A confined operation leaves the allocator of the buffer in a good state, so that what is said of
allocators applies behind it, too. -/
theorem fits (confined : Confined snug buffer memory later after)
    (fits : memory.Fits buffer.allocator) : after.Fits later.allocator := by
  rw [confined.advance.make.allocator_eq]
  exact confined.advance.fits fits

/-- Where what is written stays in its element, the operation touched its own bytes only. -/
theorem own (confined : Confined snug buffer memory later after) (sure : snug) :
    Advance (buffer.Tail 0) buffer memory later after :=
  confined.advance.mono fun _ _ reach => reach sure

end Confined

/-! ## Making room -/

/-- Room was made, or there was no room to be had and the buffer is as it was. -/
def Roomed (buffer : Buffer) (memory : Memory) (capacity : Int) :
    EStateM.Result Fault Memory Buffer → Prop
  | .ok later after => 0 < buffer.layout.size ∧ Reserved buffer memory capacity later after
  | .error _ after => Memory.ChangesWithin (fun _ _ => False) memory after

theorem roomed_reserve (fits : memory.Fits buffer.allocator) (capacity : Int) :
    Roomed buffer memory capacity (buffer.reserve capacity memory) := by
  by_cases unsized : buffer.layout.size = 0
  · rw [reserve_unsized unsized]
    exact .refl _ memory
  · cases ran : buffer.reserve capacity memory with
    | ok later after =>
        exact ⟨Nat.pos_of_ne_zero unsized, reserved_of_reserve fits ran⟩
    | error fault after =>
        rw [reserve_eq unsized] at ran
        split at ran
        · cases ran
        · split at ran
          · cases ran
          · rename_i refused
            cases ran
            cases Memory.allocate_error refused
            exact Memory.changesWithin_record _ memory _

theorem Reserved.still_housed {capacity : Int}
    (reserved : Reserved buffer memory capacity later after) (housed : buffer.Housed) :
    later.Housed := by
  have layout := reserved.advance.make.layout_eq
  refine ⟨by rw [layout]; exact housed.read, ?_, ?_⟩
  · rw [reserved.count_eq, layout]
    exact Nat.le_trans housed.room reserved.blockSize_le
  · rw [reserved.count_eq, layout]
    exact housed.unsized

theorem Reserved.confined {capacity : Int} (reserved : Reserved buffer memory capacity later after)
    (housed : buffer.Housed) : Confined snug buffer memory later after :=
  ⟨reserved.advance.mono fun _ _ untouched => untouched.elim, reserved.still_housed housed,
    reserved.held⟩

theorem Reserved.room_le {count : Nat} (reserved : Reserved buffer memory count later after) :
    count * later.layout.size ≤ later.blockSize := by
  have room := reserved.room
  rw [← reserved.advance.make.layout_eq] at room
  exact_mod_cast room

theorem Reserved.housed {count : Nat} (reserved : Reserved buffer memory count later after)
    (housed : buffer.Housed) (sized : 0 < buffer.layout.size) : Housed { later with count } := by
  rw [← reserved.advance.make.layout_eq] at sized
  exact (reserved.still_housed housed).recount sized reserved.room_le

theorem roomed_makeRoom (fits : memory.Fits buffer.allocator) (housed : buffer.Housed) :
    Roomed buffer memory (buffer.count + 1 : Nat) (buffer.makeRoom memory) := by
  by_cases unsized : buffer.layout.size = 0
  · simp only [makeRoom, capacity, unsized, ↓reduceIte, run_bind, run_ofExcept_error]
    exact .refl _ memory
  · have positive := Nat.pos_of_ne_zero unsized
    rw [makeRoom_eq positive]
    split
    · rename_i full
      have grown := roomed_reserve fits
        (max leastGrowth (2 * (buffer.blockSize / buffer.layout.size : Nat)))
      generalize buffer.reserve _ memory = result at grown ⊢
      cases result with
      | error fault after => exact grown
      | ok later after => exact ⟨positive, grown.2.of_full full⟩
    · rename_i unfilled
      exact ⟨positive, .of_unfilled positive housed.room unfilled memory⟩

/-! ## Writing elements -/

theorem openPlace_cases (buffer : Buffer) (index : Nat) (memory : Memory) :
    buffer.openPlace index memory = .error .rejectedValue memory ∨
    ∃ extent offset type, buffer.block = some extent ∧
      buffer.layout.singleItem? = some (offset, type) ∧
      buffer.openPlace index memory =
        .ok ⟨extent.storage, buffer.elementStart extent index + offset, type⟩
          (buffer.clearAt (index * buffer.layout.size) buffer.layout.size memory) := by
  cases block : buffer.block with
  | none => exact .inl (by simp only [openPlace, block, run_throw])
  | some extent =>
      cases single : buffer.layout.singleItem? with
      | none => exact .inl (by simp only [openPlace, block, single, run_throw])
      | some item =>
          refine .inr ⟨extent, item.1, item.2, rfl, rfl, ?_⟩
          simp only [openPlace, block, single, run_bind, run_modify, run_pure, clearAt,
            elementStart]

theorem openPlace_error {index : Nat} {fault : Fault}
    (ran : buffer.openPlace index memory = .error fault after) :
    fault = .rejectedValue ∧ after = memory := by
  rcases openPlace_cases buffer index memory with refused | ⟨_, _, _, -, -, opened⟩
  · cases ran.symm.trans refused
    exact ⟨rfl, rfl⟩
  · cases ran.symm.trans opened

/-- Filling a place writes the bytes of the value, or those that a rejected value leaves. -/
theorem final_fill (buffer : Buffer) (place : ItemPlace) (value : Value) (memory : Memory) :
    ∃ bytes : Bytes, bytes.length ≤ place.type.written ∧
      Running.final (buffer.fill place value memory) =
        memory.write place.storage place.start bytes := by
  unfold fill
  dsimp only
  cases encoded : place.type.encode buffer.layout.isNative buffer.layout.bigEndian value with
  | ok bytes => exact ⟨bytes, Nat.le_of_eq (FieldType.length_encode encoded), rfl⟩
  | error fault => exact ⟨_, FieldType.length_residue_le _ _ value, rfl⟩

structure Opened (snug : Prop) (buffer : Buffer) (memory : Memory) (place : ItemPlace)
    (after : Memory) : Prop where
  opened : Memory.ChangesWithin (buffer.Reach snug) memory after
  filled : ∀ value,
    Memory.ChangesWithin (buffer.Reach snug) memory (Running.final (buffer.fill place value after))

theorem opened_of_openPlace {index : Nat} {place : ItemPlace} (within : snug → buffer.layout.Snug)
    (sized : 0 < buffer.layout.size) (room : (index + 1) * buffer.layout.size ≤ buffer.blockSize)
    (ran : buffer.openPlace index memory = .ok place after) :
    Opened snug buffer memory place after := by
  rcases openPlace_cases buffer index memory with refused |
    ⟨extent, offset, type, block, single, opened⟩
  · rw [refused] at ran
    cases ran
  · rw [opened] at ran
    cases ran
    rw [Nat.succ_mul] at room
    have cleared : Memory.ChangesWithin (buffer.Reach snug) memory
        (buffer.clearAt (index * buffer.layout.size) buffer.layout.size memory) :=
      (changesWithin_clearAt (by omega) memory).mono fun _ _ _ tail _ => tail.mono (Nat.zero_le _)
    refine ⟨cleared, ?_⟩
    intro value
    obtain ⟨bytes, short, same⟩ := final_fill buffer
      ⟨extent.storage, buffer.elementStart extent index + offset, type⟩ value
      (buffer.clearAt (index * buffer.layout.size) buffer.layout.size memory)
    rw [same]
    refine cleared.trans (Memory.changesWithin_write _ extent.storage _ bytes) ?_
    rintro storage byte - ⟨rfl, above, below⟩ sure
    have written_le := within sure sized single
    rw [blockSize_of_block block] at room
    dsimp only at short
    simp only [elementStart] at above below
    exact ⟨extent, block, rfl, by omega, by rw [Extent.stop]; omega⟩

/-! ## Operations on the buffer -/

def Confines {α : Type} (snug : Prop) (buffer : Buffer) (memory : Memory)
    (operation : BufferM α) : Prop :=
  Confined snug buffer memory (Running.final (operation ⟨buffer, memory⟩)).buffer
    (Running.final (operation ⟨buffer, memory⟩)).memory

theorem confines_observe {α : Type} {action : Buffer → MemoryM α} (housed : buffer.Housed)
    (changed : Memory.ChangesWithin (buffer.Reach snug) memory
      (Running.final (action buffer memory))) :
    Confines snug buffer memory (BufferM.observe action) := by
  unfold Confines BufferM.observe
  dsimp only
  cases ran : action buffer memory with
  | ok result after =>
      rw [ran] at changed
      exact .of_changes housed changed
  | error fault after =>
      rw [ran] at changed
      exact .of_changes housed changed

/-- An action replaced the buffer, or failed and left the buffer as it was. -/
def Replaces (snug : Prop) (buffer : Buffer) (memory : Memory) :
    EStateM.Result Fault Memory Buffer → Prop
  | .ok later after => Confined snug buffer memory later after
  | .error _ after => Confined snug buffer memory buffer after

theorem confines_replace {action : Buffer → MemoryM Buffer}
    (replaces : Replaces snug buffer memory (action buffer memory)) :
    Confines snug buffer memory (BufferM.replace action) := by
  unfold Confines BufferM.replace
  dsimp only
  cases ran : action buffer memory with
  | ok later after =>
      rw [ran] at replaces
      exact replaces
  | error fault after =>
      rw [ran] at replaces
      exact replaces

theorem Roomed.replaces {capacity : Int} {result : EStateM.Result Fault Memory Buffer}
    (roomed : Roomed buffer memory capacity result) (housed : buffer.Housed) :
    Replaces snug buffer memory result := by
  cases result with
  | ok later after => exact roomed.2.confined housed
  | error fault after => exact .of_untouched housed roomed

theorem confines_reserve (fits : memory.Fits buffer.allocator) (housed : buffer.Housed)
    (capacity : Int) : Confines snug buffer memory (BufferM.reserve capacity) :=
  confines_replace ((roomed_reserve fits capacity).replaces housed)

theorem confines_push (fits : memory.Fits buffer.allocator) (housed : buffer.Housed)
    (within : snug → buffer.layout.Snug) (value : Value) :
    Confines snug buffer memory (BufferM.push value) := by
  have room := roomed_makeRoom fits housed
  unfold Confines
  rw [push_eq]
  cases made : buffer.makeRoom memory with
  | error fault after =>
      rw [made] at room
      exact .of_untouched housed room
  | ok roomy between =>
      rw [made] at room
      obtain ⟨sized, reserved⟩ := room
      have first : Confined snug buffer memory roomy between := reserved.confined housed
      have room := reserved.room_le
      have counted := reserved.housed housed sized
      rw [← reserved.count_eq] at room counted
      rw [← reserved.advance.make.layout_eq] at sized within
      dsimp only
      cases opening : roomy.openPlace roomy.count between with
      | error fault after =>
          obtain ⟨-, rfl⟩ := openPlace_error opening
          exact first
      | ok place opened =>
          have wrote := (opened_of_openPlace within sized room opening).filled value
          have second := first.trans (.of_changes first.housed wrote)
          dsimp only
          cases filling : roomy.fill place value opened with
          | error fault after =>
              rw [filling] at second
              exact second
          | ok done after =>
              rw [filling] at second
              exact second.recount counted

theorem confines_extend (fits : memory.Fits buffer.allocator) (housed : buffer.Housed)
    (within : snug → buffer.layout.Snug) (values : List Value) :
    Confines snug buffer memory (BufferM.extend values) := by
  induction values generalizing buffer memory with
  | nil => exact .refl housed memory
  | cons value rest ih =>
      have first := confines_push fits housed within value
      unfold Confines at first ⊢
      rw [extend_cons]
      cases ran : BufferM.push value ⟨buffer, memory⟩ with
      | error fault state =>
          rw [ran] at first
          exact first
      | ok done state =>
          rw [ran] at first
          rw [← first.advance.make.layout_eq] at within
          exact first.trans (ih (first.fits fits) first.housed within)

def elementFound (source : Buffer) (memory : Memory) (extent : Extent) (index : Nat) :
    Except Fault Value :=
  if !source.layout.isReadable then .error .unreadable
  else
    match source.layout.singleItem? with
    | none => .error .notSingleItem
    | some (offset, type) => .ok (source.load memory extent index offset type)

theorem element_answer (source : Buffer) (extent : Extent) (index : Nat) (memory : Memory) :
    source.element extent index memory =
      answer (source.elementFound memory extent index) memory := by
  unfold element elementFound
  cases source.layout.isReadable with
  | false => rfl
  | true => cases source.layout.singleItem? <;> rfl

private theorem confines_extendFrom (source : Buffer) (extent : Extent) {index count : Nat}
    (fits : memory.Fits buffer.allocator) (housed : buffer.Housed)
    (within : snug → buffer.layout.Snug) :
    Confines snug buffer memory (BufferM.extendFrom source extent index count) := by
  induction count generalizing index buffer memory with
  | zero => exact .refl housed memory
  | succ count ih =>
      unfold Confines
      rw [extendFrom_succ, element_answer]
      cases source.elementFound memory extent index with
      | error fault => exact .refl housed memory
      | ok value =>
          have first := confines_push fits housed within value
          unfold Confines at first
          simp only [answer]
          cases ran : BufferM.push value ⟨buffer, memory⟩ with
          | error fault state =>
              rw [ran] at first
              exact first
          | ok done state =>
              rw [ran] at first
              rw [← first.advance.make.layout_eq] at within
              exact first.trans (ih (first.fits fits) first.housed within)

theorem confines_extendBy (fits : memory.Fits buffer.allocator) (housed : buffer.Housed)
    (within : snug → buffer.layout.Snug) (source : Buffer) :
    Confines snug buffer memory (BufferM.extendBy source) := by
  unfold BufferM.extendBy
  cases source.block with
  | none => exact .refl housed memory
  | some extent => exact confines_extendFrom source extent fits housed within

theorem replaces_appendBytes (fits : memory.Fits buffer.allocator) (housed : buffer.Housed)
    (bytes : Bytes) : Replaces snug buffer memory (buffer.appendBytes bytes memory) := by
  by_cases nonempty : bytes = []
  · subst nonempty
    exact .refl housed memory
  · have grown := roomed_reserve fits (buffer.count + bytes.length : Nat)
    rw [appendBytes_eq nonempty]
    cases ran : buffer.reserve (buffer.count + bytes.length : Nat) memory with
    | error fault after =>
        rw [ran] at grown
        exact .of_untouched housed grown
    | ok roomy between =>
        rw [ran] at grown
        obtain ⟨sized, reserved⟩ := grown
        have first : Confined snug buffer memory roomy between := reserved.confined housed
        have inside : buffer.count + bytes.length ≤ roomy.blockSize := by
          refine Nat.le_trans (Nat.le_mul_of_pos_right _ ?_) reserved.room_le
          rw [reserved.advance.make.layout_eq]
          exact sized
        have wrote := (changesWithin_writeAt inside between).mono
          fun _ _ _ tail (_ : snug) => Tail.mono tail (Nat.zero_le _)
        exact (first.trans (.of_changes first.housed wrote)).recount (reserved.housed housed sized)

theorem confines_appendBytes (fits : memory.Fits buffer.allocator) (housed : buffer.Housed)
    (bytes : Bytes) : Confines snug buffer memory (BufferM.appendBytes bytes) :=
  confines_replace (replaces_appendBytes fits housed bytes)

theorem confines_resize (fits : memory.Fits buffer.allocator) (housed : buffer.Housed)
    (count : Int) : Confines snug buffer memory (BufferM.resize count) := by
  refine confines_replace ?_
  by_cases negative : count < 0
  · rw [resize_negative negative]
    exact .refl housed memory
  · obtain ⟨wanted, rfl⟩ := Int.eq_ofNat_of_zero_le (Int.not_lt.mp negative)
    by_cases unsized : buffer.layout.size = 0
    · simp only [resize, negative, capacity, unsized, ↓reduceIte, run_bind, run_ofExcept_error]
      exact .refl housed memory
    · have positive := Nat.pos_of_ne_zero unsized
      rw [resize_eq positive negative]
      split
      · have grown := roomed_reserve fits wanted
        cases ran : buffer.reserve wanted memory with
        | error fault after =>
            rw [ran] at grown
            exact .of_untouched housed grown
        | ok roomy after =>
            rw [ran] at grown
            obtain ⟨-, reserved⟩ := grown
            exact (reserved.confined housed).recount (reserved.housed housed positive)
      · have within : wanted ≤ buffer.blockSize / buffer.layout.size := by omega
        exact (Confined.refl housed memory).recount
          (housed.recount positive ((Nat.le_div_iff_mul_le positive).mp within))

theorem housed_emptied (read : buffer.layout.IsRead) : buffer.emptied.Housed :=
  Housed.of_empty (by exact read) rfl

theorem confined_emptied (read : buffer.layout.IsRead)
    (changed : Memory.ChangesWithin (fun _ _ => False) memory after) :
    Confined snug buffer memory buffer.emptied after := by
  refine ⟨(advance_emptied changed).mono fun _ _ tail _ => tail, housed_emptied read, ?_⟩
  intro _ extent known
  cases known

theorem confines_release (housed : buffer.Housed) :
    Confines snug buffer memory BufferM.release := by
  obtain ⟨after, released, changed⟩ := release_eq buffer memory
  refine confines_replace ?_
  rw [released]
  exact confined_emptied housed.read changed

theorem confines_clear (housed : buffer.Housed) : Confines snug buffer memory BufferM.clear :=
  confines_replace ((Confined.refl housed memory).recount (.of_empty housed.read rfl))

/-! ## Looking at elements -/

def found (buffer : Buffer) (memory : Memory) (index : Quantity) : Except Fault Value := do
  let place ← buffer.checkIndex index
  match buffer.layout.firstItem? with
  | none => .error .noItem
  | some (offset, type) =>
      if !buffer.layout.isReadable then .error .unreadable
      else
        match buffer.block with
        | none => .error .noItem
        | some extent => .ok (buffer.load memory extent place offset type)

theorem get_answer (buffer : Buffer) (index : Quantity) (memory : Memory) :
    buffer.get index memory = answer (buffer.found memory index) memory := by
  unfold get found
  cases buffer.checkIndex index with
  | error fault => rfl
  | ok place =>
      cases buffer.layout.firstItem? with
      | none => rfl
      | some item =>
          cases buffer.layout.isReadable with
          | false => rfl
          | true => cases buffer.block <;> rfl

def allFound (buffer : Buffer) (memory : Memory) : Except Fault (List Value) :=
  match buffer.block with
  | none => .ok []
  | some extent => (List.range buffer.count).mapM (buffer.elementFound memory extent)

theorem toList_answer (buffer : Buffer) (memory : Memory) :
    buffer.toList memory = answer (buffer.allFound memory) memory := by
  unfold toList allFound
  cases buffer.block with
  | none => rfl
  | some extent => exact mapM_answer (fun index => element_answer buffer extent index memory) _

private theorem load_congr {extent : Extent} {item : Nat × FieldType} (housed : buffer.Housed)
    (block : buffer.block = some extent) (holds : memory.Holds extent ∧ after.Holds extent)
    (same : ∀ place, buffer.byteAt after place = buffer.byteAt memory place)
    (first : buffer.layout.firstItem? = some item) {index : Nat} (inside : index < buffer.count) :
    buffer.load after extent index item.1 item.2 =
      buffer.load memory extent index item.1 item.2 := by
  obtain ⟨pattern, read⟩ := housed.read
  have read_le := Layout.firstItem?_size_le read first
  have room := Nat.le_trans (Nat.mul_le_mul_right buffer.layout.size inside) housed.room
  rw [blockSize_of_block block, Nat.succ_mul] at room
  rw [load_eq_itemBytes block holds.1 (by omega), load_eq_itemBytes block holds.2 (by omega)]
  simp only [itemBytes, same]

theorem confines_pop (housed : buffer.Housed) : Confines snug buffer memory BufferM.pop := by
  unfold Confines BufferM.pop BufferM.exchange
  by_cases empty : buffer.count = 0
  · simp only [pop, empty, ↓reduceIte, run_bind, run_throw]
    exact .refl housed memory
  · simp only [pop, empty, ↓reduceIte, run_bind, run_pure, get_answer]
    cases buffer.found memory (.int (buffer.count - 1 : Nat)) with
    | error fault => exact .refl housed memory
    | ok value =>
        have sized : 0 < buffer.layout.size :=
          Nat.pos_of_ne_zero fun unsized => empty (housed.unsized unsized)
        exact (Confined.refl housed memory).recount (housed.recount sized
          (Nat.le_trans (Nat.mul_le_mul_right _ (Nat.sub_le _ _)) housed.room))

theorem checkIndex_lt {index : Quantity} {place : Nat}
    (named : buffer.checkIndex index = .ok place) : place < buffer.count := by
  unfold checkIndex at named
  split at named
  · split at named
    · cases named
      omega
    · cases named
  · split at named <;> cases named

theorem openAt_cases (buffer : Buffer) (index : Quantity) (memory : Memory) :
    (∃ fault, buffer.openAt index memory = .error fault memory) ∨
    ∃ place, place < buffer.count ∧ buffer.openAt index memory = buffer.openPlace place memory := by
  unfold openAt
  cases named : buffer.checkIndex index with
  | ok place => exact .inr ⟨place, checkIndex_lt named, rfl⟩
  | error fault => cases fault <;> exact .inl ⟨_, rfl⟩

theorem confines_set (housed : buffer.Housed) (within : snug → buffer.layout.Snug)
    (index : Quantity) (value : Value) : Confines snug buffer memory (BufferM.set index value) := by
  refine confines_observe housed ?_
  unfold set
  rw [run_bind]
  rcases openAt_cases buffer index memory with ⟨fault, refused⟩ | ⟨place, inside, same⟩
  · rw [refused]
    exact .refl _ memory
  · rw [same]
    have sized : 0 < buffer.layout.size := by
      refine Nat.pos_of_ne_zero fun unsized => ?_
      rw [housed.unsized unsized] at inside
      exact Nat.not_lt_zero _ inside
    have room := Nat.le_trans (Nat.mul_le_mul_right buffer.layout.size inside) housed.room
    cases opening : buffer.openPlace place memory with
    | ok spot opened => exact (opened_of_openPlace within sized room opening).filled value
    | error fault after =>
        obtain ⟨-, rfl⟩ := openPlace_error opening
        exact .refl _ _

theorem found_congr (housed : buffer.Housed)
    (holds : ∀ extent, buffer.block = some extent → memory.Holds extent ∧ after.Holds extent)
    (same : ∀ place, buffer.byteAt after place = buffer.byteAt memory place) (index : Quantity) :
    buffer.found after index = buffer.found memory index := by
  unfold found
  cases named : buffer.checkIndex index with
  | error fault => rfl
  | ok place =>
      cases first : buffer.layout.firstItem? with
      | none => rfl
      | some item =>
          cases block : buffer.block with
          | none => rfl
          | some extent =>
              have load := load_congr housed block (holds extent block) same first
                (checkIndex_lt named)
              cases buffer.layout.isReadable with
              | false => rfl
              | true => exact congrArg Except.ok load

private theorem elementFound_congr {extent : Extent} (housed : buffer.Housed)
    (block : buffer.block = some extent) (holds : memory.Holds extent ∧ after.Holds extent)
    (same : ∀ place, buffer.byteAt after place = buffer.byteAt memory place)
    {indices : List Nat} (inside : ∀ index ∈ indices, index < buffer.count) :
    indices.mapM (buffer.elementFound after extent) =
      indices.mapM (buffer.elementFound memory extent) := by
  induction indices with
  | nil => rfl
  | cons index rest ih =>
      have others := ih fun other member => inside other (List.mem_cons_of_mem index member)
      have own : buffer.elementFound after extent index =
          buffer.elementFound memory extent index := by
        unfold elementFound
        cases single : buffer.layout.singleItem? with
        | none => rfl
        | some item =>
            dsimp only
            rw [load_congr housed block holds same (Layout.firstItem?_of_singleItem? single)
              (inside index List.mem_cons_self)]
      rw [List.mapM_cons, List.mapM_cons, own, others]

theorem allFound_congr (housed : buffer.Housed)
    (holds : ∀ extent, buffer.block = some extent → memory.Holds extent ∧ after.Holds extent)
    (same : ∀ place, buffer.byteAt after place = buffer.byteAt memory place) :
    buffer.allFound after = buffer.allFound memory := by
  unfold allFound
  cases block : buffer.block with
  | none => rfl
  | some extent =>
      exact elementFound_congr housed block (holds extent block) same
        fun index member => List.mem_range.mp member

/-! ## Making buffers -/

/-- What a buffer without a block became can be given up again. -/
theorem Confined.abandoned (confined : Confined snug buffer memory later after)
    (block : buffer.block = none) (housed : buffer.Housed) :
    Confined snug buffer memory buffer after := by
  refine ⟨⟨.refl buffer, confined.advance.changed, fun _ known => .inl known, ?_⟩, housed, ?_⟩
  · intro _ extent known
    rw [block] at known
    cases known
  · intro _ extent known
    rw [block] at known
    cases known

theorem replaces_spawn (buffer : Buffer) (fits : memory.Fits buffer.allocator)
    (read : buffer.layout.IsRead) :
    Replaces snug buffer.emptied memory (buffer.spawn memory) := by
  unfold spawn create
  by_cases inline : buffer.inlineCapacity > 0
  · rcases Memory.newStorage_cases (buffer.inlineCapacity * buffer.layout.size) memory with
      ⟨fault, refused, -⟩ | supplied
    · simp only [inline, ↓reduceIte, run_bind, refused]
      exact .refl (housed_emptied read) memory
    · simp only [inline, ↓reduceIte, run_bind, supplied, run_pure]
      refine ⟨(advance_of_addStorage fits _).mono fun _ _ tail _ => tail, .of_empty read rfl, ?_⟩
      intro _ extent known
      cases known
      exact Memory.holds_addStorage memory _
  · simp only [inline, ↓reduceIte, run_pure]
    exact .refl (housed_emptied read) memory

private theorem confined_copied {clone : Buffer} {between : Memory}
    (made : Confined snug buffer.emptied memory clone between) (sized : 0 < buffer.layout.size)
    (room : buffer.count * buffer.layout.size ≤ clone.blockSize) :
    Confined snug buffer.emptied memory { clone with count := buffer.count }
      (match buffer.block with
      | some _ => clone.writeAt 0
          ((buffer.rawBytes between).take (buffer.count * buffer.layout.size)) between
      | none => between) := by
  have layout : clone.layout = buffer.layout := made.advance.make.layout_eq
  have wrote := (changesWithin_writeAt_take room (buffer.rawBytes between) between).mono
    fun _ _ _ tail (_ : snug) => tail
  have counted : Housed { clone with count := buffer.count } := by
    rw [← layout] at sized room
    exact made.housed.recount sized room
  cases buffer.block with
  | none => exact made.recount counted
  | some source => exact (made.trans (.of_changes made.housed wrote)).recount counted

theorem replaces_copy (fits : memory.Fits buffer.allocator) (housed : buffer.Housed) :
    Replaces snug buffer.emptied memory (buffer.copy memory) := by
  have spawned : Replaces snug buffer.emptied memory (buffer.spawn memory) :=
    replaces_spawn buffer fits housed.read
  by_cases unsized : buffer.layout.size = 0
  · simp only [copy, capacity, unsized, ↓reduceIte, run_bind, run_ofExcept_error]
    cases ran : buffer.spawn memory with
    | error fault after =>
        rw [ran] at spawned
        exact spawned
    | ok blank made =>
        rw [ran] at spawned
        exact spawned.abandoned rfl (housed_emptied housed.read)
  · have positive := Nat.pos_of_ne_zero unsized
    rw [copy_eq buffer memory positive]
    cases ran : buffer.spawn memory with
    | error fault after =>
        rw [ran] at spawned
        exact spawned
    | ok blank made =>
        rw [ran] at spawned
        have first : Confined snug buffer.emptied memory blank made := spawned
        have grown := roomed_reserve (first.fits fits) (buffer.blockSize / buffer.layout.size : Nat)
        dsimp only
        cases grew : blank.reserve (buffer.blockSize / buffer.layout.size : Nat) made with
        | error fault after =>
            rw [grew] at grown
            exact (first.trans (.of_untouched first.housed grown)).abandoned rfl
              (housed_emptied housed.read)
        | ok clone between =>
            rw [grew] at grown
            obtain ⟨-, reserved⟩ := grown
            have second := first.trans (reserved.confined first.housed)
            have layout : clone.layout = buffer.layout := second.advance.make.layout_eq
            have whole := reserved.room_le
            rw [layout] at whole
            have fitting := (Nat.le_div_iff_mul_le positive).mpr housed.room
            exact confined_copied second positive
              (Nat.le_trans (Nat.mul_le_mul_right _ fitting) whole)

theorem replaces_ofBytes {allocator : AllocatorId} (fits : memory.Fits allocator) (bytes : Bytes) :
    Replaces snug ⟨allocator, .text, Layout.byteLayout, 0, 0, none, false⟩ memory
      (ofBytes allocator bytes memory) :=
  replaces_appendBytes fits (.of_empty Layout.isRead_byteLayout rfl) bytes

/-- Moving out leaves the buffer without a block, or fails before anything happens to it. -/
theorem take_cases (buffer : Buffer) (memory : Memory) :
    ∃ after, Memory.ChangesWithin (fun _ _ => False) memory after ∧ after.calls = memory.calls ∧
      ((∃ fault, buffer.take memory = .error fault after) ∨
        buffer.take memory = .ok (buffer, buffer.emptied) after) := by
  unfold take spawn create
  by_cases inline : buffer.inlineCapacity > 0
  · rcases Memory.newStorage_cases (buffer.inlineCapacity * buffer.layout.size) memory with
      ⟨fault, refused, -⟩ | supplied
    · simp only [inline, ↓reduceIte, run_bind, refused]
      exact ⟨memory, .refl _ memory, rfl, .inl ⟨fault, rfl⟩⟩
    · simp only [inline, ↓reduceIte, run_bind, supplied, run_pure]
      exact ⟨_, Memory.changesWithin_addStorage _ memory _, rfl, .inr rfl⟩
  · simp only [inline, ↓reduceIte]
    exact ⟨memory, .refl _ memory, rfl, .inr rfl⟩

end Buffer

end LexKit
