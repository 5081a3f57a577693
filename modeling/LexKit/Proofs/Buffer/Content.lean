import LexKit.Proofs.Buffer.Growth

/-!
# Content of texts

Writing into the block of a buffer changes the places written to and no others. Appending bytes to a
text puts them behind its content, and a text made of bytes has these bytes as its content.
-/

set_option autoImplicit false

namespace LexKit.Buffer

open Running

/-- The byte belongs to the block, at the place `first` or behind it. -/
def Tail (buffer : Buffer) (first : Nat) (storage : StorageId) (index : Nat) : Prop :=
  ∃ extent, buffer.block = some extent ∧ storage = extent.storage ∧ extent.start + first ≤ index ∧
    index < extent.stop

theorem Tail.mono {buffer : Buffer} {first lower : Nat} {storage : StorageId} {index : Nat}
    (tail : buffer.Tail first storage index) (le : lower ≤ first) :
    buffer.Tail lower storage index := by
  obtain ⟨extent, known, same, above, below⟩ := tail
  exact ⟨extent, known, same, by omega, below⟩

/-- A byte of the block after an operation was a byte of the block before, or fresh. -/
theorem Advance.tail_covers {touched : StorageId → Nat → Prop} {buffer later : Buffer}
    {memory after : Memory} {first : Nat} {storage : StorageId} {index : Nat}
    (advance : Advance touched buffer memory later after)
    (known : storage.index < memory.storages.size) (tail : later.Tail first storage index) :
    buffer.Tail first storage index ∨ memory.Remaining buffer.allocator storage index := by
  obtain ⟨extent, block, rfl, above, below⟩ := tail
  rcases advance.block extent block with kept | fresh
  · exact .inl ⟨extent, kept, rfl, above, below⟩
  · rcases fresh extent.storage index ⟨rfl, by omega, below⟩ with new | remains
    · exact absurd known (Nat.not_lt_of_le new)
    · exact .inr remains

/-- A change of the memory that leaves the buffer alone is an advance of the buffer to itself,
whatever bytes it touches. -/
theorem advance_of_changes {touched : StorageId → Nat → Prop} (buffer : Buffer)
    {memory after : Memory} (changed : Memory.ChangesWithin touched memory after) :
    Advance touched buffer memory buffer after :=
  ⟨.refl buffer, changed.mono fun _ _ _ also => .inl also, fun _ known => .inl known,
    fun settled extent known => changed.settled (settled extent known)⟩

def writeAt (buffer : Buffer) (start : Nat) (bytes : Bytes) (memory : Memory) : Memory :=
  match buffer.block with
  | some extent => memory.write extent.storage (extent.start + start) bytes
  | none => memory

theorem changesWithin_writeAt {buffer : Buffer} {start : Nat} {bytes : Bytes}
    (room : start + bytes.length ≤ buffer.blockSize) (memory : Memory) :
    Memory.ChangesWithin (buffer.Tail start) memory (buffer.writeAt start bytes memory) := by
  unfold writeAt
  cases known : buffer.block with
  | none => exact .refl _ memory
  | some extent =>
      rw [blockSize_of_block known] at room
      refine (Memory.changesWithin_write memory extent.storage (extent.start + start) bytes).mono ?_
      rintro storage index - ⟨rfl, above, below⟩
      exact ⟨extent, known, rfl, above, by simp only [Extent.stop]; omega⟩

/-- Of what is written, the block shows the part that lies within it. -/
theorem byteAt_writeAt_inside {buffer : Buffer} {memory : Memory} {start place : Nat}
    {bytes : Bytes} (held : buffer.Held memory) (inside : place < buffer.blockSize) :
    buffer.byteAt (buffer.writeAt start bytes memory) place =
      if start ≤ place then bytes[place - start]?.getD (buffer.byteAt memory place)
      else buffer.byteAt memory place := by
  cases known : buffer.block with
  | none =>
      rw [blockSize_of_no_block known] at inside
      exact absurd inside (Nat.not_lt_zero place)
  | some extent =>
      have stop_le := (held extent known).stop_le
      rw [Extent.stop] at stop_le
      rw [blockSize_of_block known] at inside
      rw [byteAt_of_block known, byteAt_of_block known, if_pos inside, if_pos inside, writeAt, known,
        Memory.storage_write_self (held extent known).storage_lt, Storage.byte_write]
      by_cases above : start ≤ place
      · rw [if_pos ⟨by omega, by omega⟩, if_pos above]
        congr 2
        omega
      · rw [if_neg (by omega), if_neg above]

theorem byteAt_writeAt {buffer : Buffer} {memory : Memory} {start : Nat} {bytes : Bytes}
    (holds : ∀ extent, buffer.block = some extent → memory.Holds extent)
    (room : start + bytes.length ≤ buffer.blockSize) (place : Nat) :
    buffer.byteAt (buffer.writeAt start bytes memory) place =
      if start ≤ place then bytes[place - start]?.getD (buffer.byteAt memory place)
      else buffer.byteAt memory place := by
  by_cases inside : place < buffer.blockSize
  · exact byteAt_writeAt_inside holds inside
  · have outside := Nat.le_of_not_lt inside
    rw [byteAt_outside outside, byteAt_outside outside, List.getElem?_eq_none (by omega)]
    split <;> rfl

/-! ## Appending bytes -/

/-- Appending bytes is a reservation with one write behind it. The fault can only be that of the
reservation, and it leaves the buffer as it was. -/
theorem appendBytes_eq {buffer : Buffer} {bytes : Bytes} (nonempty : bytes ≠ [])
    (memory : Memory) :
    buffer.appendBytes bytes memory =
      match buffer.reserve (buffer.count + bytes.length : Nat) memory with
      | .ok roomy between =>
          .ok { roomy with count := buffer.count + bytes.length }
            (roomy.writeAt buffer.count bytes between)
      | .error fault after => .error fault after := by
  simp only [appendBytes, List.isEmpty_iff, nonempty, ↓reduceIte, run_bind]
  cases buffer.reserve (buffer.count + bytes.length : Nat) memory with
  | error fault after => rfl
  | ok roomy between =>
      unfold writeAt
      cases known : roomy.block with
      | none => simp only [known, run_pure]
      | some extent => simp only [known, run_bind, run_modify, run_pure]

structure Appended (buffer : Buffer) (memory : Memory) (bytes : Bytes) (later : Buffer)
    (after : Memory) : Prop where
  advance : Advance (buffer.Tail buffer.count) buffer memory later after
  count_eq : later.count = buffer.count + bytes.length
  room : buffer.count ≤ buffer.blockSize → later.count ≤ later.blockSize
  blockSize_le : buffer.blockSize ≤ later.blockSize
  byteAt_eq : ∀ place, later.byteAt after place =
    if buffer.count ≤ place then
      bytes[place - buffer.count]?.getD (buffer.byteAt memory place)
    else buffer.byteAt memory place

theorem appended_of_appendBytes {buffer later : Buffer} {memory after : Memory} {bytes : Bytes}
    (sized : 0 < buffer.layout.size) (fits : memory.Fits buffer.allocator)
    (settled : buffer.Settled memory buffer.allocator)
    (appended : buffer.appendBytes bytes memory = .ok later after) :
    Appended buffer memory bytes later after := by
  by_cases nonempty : bytes = []
  · subst nonempty
    cases appended
    refine ⟨.refl _ buffer memory, rfl, fun room => room, Nat.le_refl _, ?_⟩
    intro place
    simp
  · rw [appendBytes_eq nonempty] at appended
    split at appended
    · rename_i roomy between reserved
      cases appended
      have spec := reserved_of_reserve fits reserved
      have enough : buffer.count + bytes.length ≤ roomy.blockSize := by
        have room := spec.room
        exact Nat.le_trans (Nat.le_mul_of_pos_right _ sized) (by exact_mod_cast room)
      have settledThen := spec.advance.settled settled
      have wrote := advance_of_changes roomy (changesWithin_writeAt enough between)
      have advance := (spec.advance.mono fun _ _ untouched => untouched.elim).trans wrote
        fun storage index old tail => spec.advance.tail_covers old tail
      refine ⟨advance.recount _, rfl, fun _ => enough, spec.blockSize_le, ?_⟩
      intro place
      rw [← spec.byteAt_eq settled place]
      exact byteAt_writeAt (fun extent known => (settledThen extent known).holds) enough place
    · cases appended

/-! ## Texts made of bytes -/

/-- Where the block has room for the content, a text is read byte by byte. -/
theorem content_eq {buffer : Buffer} {memory : Memory} {bytes : Bytes}
    (holds : ∀ extent, buffer.block = some extent → memory.Holds extent)
    (count : buffer.count = bytes.length) (room : buffer.count ≤ buffer.blockSize)
    (same : ∀ place (inside : place < bytes.length), buffer.byteAt memory place = bytes[place]) :
    buffer.content memory = bytes := by
  unfold content rawBytes
  cases known : buffer.block with
  | none =>
      rw [blockSize_of_no_block known] at room
      rw [List.take_nil]
      exact (List.eq_nil_of_length_eq_zero (by omega)).symm
  | some extent =>
      have stop_le := (holds extent known).stop_le
      rw [Extent.stop] at stop_le
      rw [blockSize_of_block known] at room
      change (memory.read extent).take buffer.count = bytes
      apply List.ext_getElem
      · rw [List.length_take, Memory.read, Storage.length_read]
        omega
      · intro place held inside
        have byte := same place inside
        rw [byteAt_of_block known, if_pos (by omega)] at byte
        rw [List.getElem_take]
        exact (Storage.getElem_read _).trans byte

structure MadeText (allocator : AllocatorId) (bytes : Bytes) (memory : Memory) (text : Buffer)
    (after : Memory) : Prop where
  changed : Memory.ChangesWithin (memory.Remaining allocator) memory after
  settled : text.Settled after allocator
  content_eq : text.content after = bytes

theorem madeText_of_ofBytes {allocator : AllocatorId} {bytes : Bytes} {memory after : Memory}
    {text : Buffer} (fits : memory.Fits allocator)
    (made : ofBytes allocator bytes memory = .ok text after) :
    MadeText allocator bytes memory text after := by
  obtain ⟨blank, between, created, appended⟩ := bind_eq_ok made
  cases created
  have settled :
      Settled ⟨allocator, .text, Layout.byteLayout, 0, 0, none, false⟩ memory allocator := by
    intro extent known
    cases known
  have spec := appended_of_appendBytes Nat.one_pos fits settled appended
  have settledAfter := spec.advance.settled settled
  have allocator_eq := spec.advance.make.allocator_eq
  refine ⟨spec.advance.changed.mono ?_, settledAfter, ?_⟩
  · rintro storage index - (⟨extent, known, -⟩ | remains)
    · cases known
    · exact remains
  · refine Buffer.content_eq (fun extent known => (settledAfter extent known).holds) ?_
      (spec.room (Nat.zero_le _)) ?_
    · rw [spec.count_eq]
      exact Nat.zero_add _
    · intro place inside
      rw [spec.byteAt_eq place, if_pos (Nat.zero_le _), Nat.sub_zero,
        List.getElem?_eq_getElem inside]
      rfl

end LexKit.Buffer
