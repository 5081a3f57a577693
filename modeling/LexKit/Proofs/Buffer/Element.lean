import LexKit.Proofs.Buffer.Content
import LexKit.Proofs.Buffer.Layout

/-!
# Elements

Each element is a slot: what it shows is decided by the bytes at its places in the block, also where
it lies behind the count. Storing a value changes the slot that it is stored to and no other.
-/

set_option autoImplicit false

namespace LexKit

namespace Layout

/-- What reading gives after a value was written, if the item takes the value. -/
def kept? (layout : Layout) (value : Value) : Option Value :=
  match layout.singleItem? with
  | some (_, type) =>
      match type.encode layout.isNative layout.bigEndian value with
      | .ok bytes => some (type.decode layout.bigEndian bytes)
      | .error _ => none
  | none => none

def blank (layout : Layout) : Value :=
  match layout.singleItem? with
  | some (_, type) => type.decode layout.bigEndian (List.replicate type.size 0)
  | none => .none

theorem kept?_integer {layout : Layout} {offset : Nat} {signed : Bool} {width : Nat}
    {value kept : Value} {number : Int}
    (single : layout.singleItem? = some (offset, .integer signed width))
    (stands : value.int? = some number) (taken : layout.kept? value = some kept) :
    kept = .int number := by
  simp only [kept?, single, FieldType.encode, stands] at taken
  cases fits : FieldType.integerPattern? signed width number with
  | none =>
      rw [fits] at taken
      cases taken
  | some pattern =>
      rw [fits] at taken
      cases taken
      obtain ⟨small, same⟩ := FieldType.ofIntegerPattern_integerPattern fits
      simp only [FieldType.decode, ofOrderedBytes_orderedBytes, Nat.mod_eq_of_lt small, same]

theorem kept?_byteLayout (byte : UInt8) :
    byteLayout.kept? (.int byte.toNat) = some (.int byte.toNat) := by
  have small := byte.toNat_lt
  have fits : FieldType.integerPattern? false 1 byte.toNat = some byte.toNat := by
    unfold FieldType.integerPattern?
    have span : Nat.pow 2 (8 * 1) = 256 := rfl
    simp only [span, Bool.false_eq_true, ↓reduceIte]
    rw [if_pos (by omega), Int.emod_eq_of_lt (by omega) (by omega), Int.toNat_natCast]
  have taken : byteLayout.kept? (.int byte.toNat) =
      some (FieldType.decode (.integer false 1) false (orderedBytes false 1 byte.toNat)) := by
    have single : byteLayout.singleItem? = some (0, .integer false 1) := rfl
    simp only [kept?, single, FieldType.encode, Value.int?, fits]
    rfl
  have single : byteLayout.singleItem? = some (0, .integer false 1) := rfl
  have stands : (Value.int byte.toNat).int? = some (byte.toNat : Int) := rfl
  rw [taken, kept?_integer single stands taken]

end Layout

namespace Buffer

open Running

def itemBytes (buffer : Buffer) (memory : Memory) (index offset size : Nat) : Bytes :=
  (List.range size).map fun place =>
    buffer.byteAt memory (index * buffer.layout.size + offset + place)

/-- What an element shows. Behind the block, an element shows what zeros stand for. -/
def slot (buffer : Buffer) (memory : Memory) (index : Nat) : Value :=
  match buffer.layout.singleItem? with
  | some (offset, type) =>
      type.decode buffer.layout.bigEndian (buffer.itemBytes memory index offset type.size)
  | none => .none

variable {buffer later : Buffer} {memory after : Memory} {offset : Nat} {type : FieldType}

theorem slot_of_contains (contains : buffer.layout.Contains offset type) (memory : Memory)
    (index : Nat) : buffer.slot memory index =
      type.decode buffer.layout.bigEndian (buffer.itemBytes memory index offset type.size) := by
  simp only [slot, contains.single]

theorem itemBytes_congr (contains : buffer.layout.Contains offset type) {index : Nat}
    (layout : later.layout = buffer.layout)
    (same : ∀ place, index * buffer.layout.size ≤ place →
      place < (index + 1) * buffer.layout.size →
        later.byteAt after place = buffer.byteAt memory place) :
    later.itemBytes after index offset type.size =
      buffer.itemBytes memory index offset type.size := by
  have size_le := contains.size_le
  unfold itemBytes
  rw [layout]
  apply List.map_congr_left
  intro place member
  have inside := List.mem_range.mp member
  refine same _ (by omega) ?_
  rw [Nat.succ_mul]
  omega

/-- What an element shows depends on the bytes of its own place only. Buffers of one layout that
agree on these bytes show the same there. -/
theorem slot_congr (contains : buffer.layout.Contains offset type) {index : Nat}
    (layout : later.layout = buffer.layout)
    (same : ∀ place, index * buffer.layout.size ≤ place →
      place < (index + 1) * buffer.layout.size →
        later.byteAt after place = buffer.byteAt memory place) :
    later.slot after index = buffer.slot memory index := by
  have contained := contains
  rw [← layout] at contained
  rw [slot_of_contains contained, slot_of_contains contains, itemBytes_congr contains layout same,
    layout]

theorem slot_eq_blank (contains : buffer.layout.Contains offset type) {index : Nat}
    (zeros : ∀ place, index * buffer.layout.size ≤ place →
      place < (index + 1) * buffer.layout.size → buffer.byteAt memory place = 0) :
    buffer.slot memory index = buffer.layout.blank := by
  have size_le := contains.size_le
  have bytes : buffer.itemBytes memory index offset type.size = List.replicate type.size 0 := by
    apply List.eq_replicate_iff.mpr
    refine ⟨by rw [itemBytes, List.length_map, List.length_range], ?_⟩
    intro byte member
    obtain ⟨place, held, rfl⟩ := List.mem_map.mp member
    have inside := List.mem_range.mp held
    refine zeros _ (by omega) ?_
    rw [Nat.succ_mul]
    omega
  rw [slot_of_contains contains, bytes]
  simp only [Layout.blank, contains.single]

/-! ## Reading an element -/

theorem load_eq_itemBytes {extent : Extent} (block : buffer.block = some extent)
    (holds : memory.Holds extent) {index : Nat}
    (room : index * buffer.layout.size + offset + type.size ≤ extent.size) :
    buffer.load memory extent index offset type =
      type.decode buffer.layout.bigEndian (buffer.itemBytes memory index offset type.size) := by
  have stop_le := holds.stop_le
  rw [Extent.stop] at stop_le
  have bytes : (memory.storage extent.storage).read (buffer.elementStart extent index + offset)
      type.size = buffer.itemBytes memory index offset type.size := by
    unfold elementStart
    apply List.ext_getElem
    · rw [Storage.length_read, itemBytes, List.length_map, List.length_range]
      omega
    · intro place held also
      have inside : place < type.size := by
        rw [Storage.length_read] at held
        omega
      simp only [itemBytes, List.getElem_map, List.getElem_range]
      rw [Storage.getElem_read, byteAt_of_block block, if_pos (by omega)]
      congr 1
      omega
  rw [← bytes]
  rfl

theorem load_eq_slot {extent : Extent} (contains : buffer.layout.Contains offset type)
    (block : buffer.block = some extent) (holds : memory.Holds extent) {index : Nat}
    (room : (index + 1) * buffer.layout.size ≤ extent.size) :
    buffer.load memory extent index offset type = buffer.slot memory index := by
  have size_le := contains.size_le
  rw [Nat.succ_mul] at room
  rw [slot_of_contains contains]
  exact load_eq_itemBytes block holds (by omega)

/-! ## Storing a value -/

/-- The memory with the bytes from a place of the block on cleared. -/
def clearAt (buffer : Buffer) (start count : Nat) (memory : Memory) : Memory :=
  match buffer.block with
  | some extent => memory.updateStorage extent.storage (·.zero (extent.start + start) count)
  | none => memory

theorem changesWithin_clearAt {start count : Nat} (room : start + count ≤ buffer.blockSize)
    (memory : Memory) :
    Memory.ChangesWithin (buffer.Tail start) memory (buffer.clearAt start count memory) := by
  unfold clearAt
  cases known : buffer.block with
  | none => exact .refl _ memory
  | some extent =>
      rw [blockSize_of_block known] at room
      refine (Memory.changesWithin_zero memory extent.storage (extent.start + start) count).mono ?_
      rintro storage index - ⟨rfl, above, below⟩
      exact ⟨extent, known, rfl, above, by simp only [Extent.stop]; omega⟩

theorem byteAt_clearAt {start count : Nat}
    (holds : ∀ extent, buffer.block = some extent → memory.Holds extent) (place : Nat) :
    buffer.byteAt (buffer.clearAt start count memory) place =
      if start ≤ place ∧ place < start + count then 0 else buffer.byteAt memory place := by
  cases known : buffer.block with
  | none =>
      rw [byteAt_of_no_block known, byteAt_of_no_block known]
      split <;> rfl
  | some extent =>
      rw [byteAt_of_block known, byteAt_of_block known, clearAt, known,
        Memory.storage_updateStorage_self (holds extent known).storage_lt, Storage.byte_zero]
      by_cases inside : place < extent.size
      · rw [if_pos inside, if_pos inside]
        by_cases cleared : start ≤ place ∧ place < start + count
        · rw [if_pos cleared, if_pos (by omega)]
        · rw [if_neg cleared, if_neg (by omega)]
      · rw [if_neg inside, if_neg inside]
        split <;> rfl

/-- The memory with the bytes of a value in the place of an element. -/
def storeAt (buffer : Buffer) (index offset : Nat) (bytes : Bytes) (memory : Memory) : Memory :=
  buffer.writeAt (index * buffer.layout.size + offset) bytes
    (buffer.clearAt (index * buffer.layout.size) buffer.layout.size memory)

/-- A value that the item takes is stored: the place is opened, and filled with its bytes. -/
theorem store_of_kept? (memory : Memory) {index : Nat} {value kept : Value}
    (contains : buffer.layout.Contains offset type)
    (room : (index + 1) * buffer.layout.size ≤ buffer.blockSize)
    (taken : buffer.layout.kept? value = some kept) :
    ∃ bytes place between, buffer.openPlace index memory = .ok place between ∧
      buffer.fill place value between = .ok () (buffer.storeAt index offset bytes memory) ∧
      bytes.length = type.written ∧
      type.decode buffer.layout.bigEndian (bytes.take type.size) = kept := by
  have positive := contains.positive
  rw [Nat.succ_mul] at room
  simp only [Layout.kept?, contains.single] at taken
  cases encoded : type.encode buffer.layout.isNative buffer.layout.bigEndian value with
  | error fault =>
      rw [encoded] at taken
      cases taken
  | ok bytes =>
      rw [encoded] at taken
      cases taken
      cases known : buffer.block with
      | none =>
          rw [blockSize_of_no_block known] at room
          omega
      | some extent =>
          refine ⟨bytes, ⟨extent.storage, buffer.elementStart extent index + offset, type⟩,
            buffer.clearAt (index * buffer.layout.size) buffer.layout.size memory, ?_, ?_,
            FieldType.length_encode encoded, FieldType.decode_take_encode encoded⟩
          · simp only [openPlace, known, contains.single, run_bind, run_modify, run_pure, clearAt,
              elementStart]
          · simp only [fill, encoded, run_modify, storeAt, writeAt, known, elementStart,
              Nat.add_assoc]

/-- What storing a value does: one slot shows the value, as the layout keeps it. -/
structure Stored (buffer : Buffer) (memory : Memory) (index : Nat) (kept : Value)
    (after : Memory) : Prop where
  advance : Advance (buffer.Tail (index * buffer.layout.size)) buffer memory buffer after
  slot_eq : ∀ other, buffer.slot after other = if other = index then kept else
    buffer.slot memory other

private theorem storeAt_changes {index : Nat} {bytes : Bytes}
    (contains : buffer.layout.Contains offset type)
    (room : (index + 1) * buffer.layout.size ≤ buffer.blockSize)
    (length : bytes.length = type.written) (memory : Memory) :
    Memory.ChangesWithin (buffer.Tail (index * buffer.layout.size)) memory
      (buffer.storeAt index offset bytes memory) := by
  have written_le := contains.written_le
  rw [Nat.succ_mul] at room
  have cleared : Memory.ChangesWithin (buffer.Tail (index * buffer.layout.size)) memory
      (buffer.clearAt (index * buffer.layout.size) buffer.layout.size memory) :=
    changesWithin_clearAt (by omega) memory
  have wrote : Memory.ChangesWithin (buffer.Tail (index * buffer.layout.size + offset))
      (buffer.clearAt (index * buffer.layout.size) buffer.layout.size memory)
      (buffer.storeAt index offset bytes memory) :=
    changesWithin_writeAt (by omega) _
  exact cleared.trans wrote fun _ _ _ tail => tail.mono (by omega)

private theorem byteAt_storeAt {index : Nat} {bytes : Bytes}
    (contains : buffer.layout.Contains offset type)
    (holds : ∀ extent, buffer.block = some extent → memory.Holds extent)
    (room : (index + 1) * buffer.layout.size ≤ buffer.blockSize)
    (length : bytes.length = type.written) (place : Nat) :
    buffer.byteAt (buffer.storeAt index offset bytes memory) place =
      if index * buffer.layout.size + offset ≤ place ∧
          place < index * buffer.layout.size + offset + bytes.length then
        bytes[place - (index * buffer.layout.size + offset)]?.getD 0
      else if index * buffer.layout.size ≤ place ∧ place < (index + 1) * buffer.layout.size then 0
      else buffer.byteAt memory place := by
  have written_le := contains.written_le
  rw [Nat.succ_mul] at room ⊢
  have cleared : Memory.ChangesWithin (buffer.Tail (index * buffer.layout.size)) memory
      (buffer.clearAt (index * buffer.layout.size) buffer.layout.size memory) :=
    changesWithin_clearAt (by omega) memory
  rw [storeAt, byteAt_writeAt (fun extent known => cleared.holds (holds extent known)) (by omega),
    byteAt_clearAt holds]
  by_cases written : index * buffer.layout.size + offset ≤ place ∧
      place < index * buffer.layout.size + offset + bytes.length
  · rw [if_pos written.1, if_pos written, List.getElem?_eq_getElem (by omega)]
    rfl
  · rw [if_neg written]
    split
    · rw [List.getElem?_eq_none (by omega)]
      rfl
    · rfl

/-- Bytes that stay in their element are stored: the element shows what they decode to, and every
other one what it showed before. -/
theorem stored_of_storeAt {index : Nat} {kept : Value} {bytes : Bytes}
    (contains : buffer.layout.Contains offset type)
    (holds : ∀ extent, buffer.block = some extent → memory.Holds extent)
    (room : (index + 1) * buffer.layout.size ≤ buffer.blockSize)
    (length : bytes.length = type.written)
    (stands : type.decode buffer.layout.bigEndian (bytes.take type.size) = kept) :
    Stored buffer memory index kept (buffer.storeAt index offset bytes memory) := by
  have written_le := contains.written_le
  have size_le := type.size_le_written
  have byte := byteAt_storeAt contains holds room length
  refine ⟨advance_of_changes buffer (storeAt_changes contains room length memory), ?_⟩
  intro other
  by_cases same : other = index
  · subst same
    rw [if_pos rfl, slot_of_contains contains, ← stands]
    congr 1
    apply List.ext_getElem
    · rw [itemBytes, List.length_map, List.length_range, List.length_take]
      omega
    · intro place held also
      simp only [itemBytes, List.length_map, List.length_range] at held
      simp only [itemBytes, List.getElem_map, List.getElem_range, List.getElem_take]
      rw [byte, if_pos (by omega), Nat.add_sub_cancel_left, List.getElem?_eq_getElem (by omega)]
      rfl
  -- The bytes written do not reach another element, as `contains` keeps them in their own.
  · rw [if_neg same]
    apply slot_congr contains rfl
    intro place above below
    have spread : (index + 1) * buffer.layout.size =
        index * buffer.layout.size + buffer.layout.size := Nat.succ_mul _ _
    have apart : ¬(index * buffer.layout.size ≤ place ∧
        place < (index + 1) * buffer.layout.size) := by
      rintro ⟨first, last⟩
      have lower := Nat.lt_of_mul_lt_mul_right (Nat.lt_of_le_of_lt above last)
      have upper := Nat.lt_of_mul_lt_mul_right (Nat.lt_of_le_of_lt first below)
      omega
    rw [byte, if_neg (by omega), if_neg apart]

end Buffer

end LexKit
