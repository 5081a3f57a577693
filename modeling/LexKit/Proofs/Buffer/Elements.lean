import LexKit.Proofs.Buffer.Footprint

/-!
# Elements as a list

What the elements of a buffer show, in order, for every layout of one item, also where what is
written for a value reaches out of its element. An element is decided by its own bytes. Bytes stored
in an element change what it shows, and leave the elements in front of it alone; those behind it are
left alone where the bytes stay in the element.
-/

set_option autoImplicit false

namespace LexKit

theorem Layout.IsRead.size_le {layout : Layout} {offset : Nat} {type : FieldType}
    (read : layout.IsRead) (single : layout.singleItem? = some (offset, type)) :
    offset + type.size ≤ layout.size := by
  obtain ⟨pattern, read⟩ := read
  exact firstItem?_size_le read (firstItem?_of_singleItem? single)

namespace Buffer

open Running

variable {buffer later : Buffer} {memory after : Memory} {offset : Nat} {type : FieldType}

def elements (buffer : Buffer) (memory : Memory) : List Value :=
  (List.range buffer.count).map (buffer.slot memory)

@[simp]
theorem length_elements (buffer : Buffer) (memory : Memory) :
    (buffer.elements memory).length = buffer.count := by
  rw [elements, List.length_map, List.length_range]

theorem getElem_elements {index : Nat} (inside : index < (buffer.elements memory).length) :
    (buffer.elements memory)[index] = buffer.slot memory index := by
  simp only [elements, List.getElem_map, List.getElem_range]

theorem elements_recount (memory : Memory) (buffer : Buffer) :
    Buffer.elements { buffer with count := buffer.count + 1 } memory =
      buffer.elements memory ++ [buffer.slot memory buffer.count] := by
  rw [elements, List.range_succ, List.map_append]
  rfl

theorem slot_of_bytes (read : buffer.layout.IsRead) (layout : later.layout = buffer.layout)
    {index : Nat}
    (same : ∀ place, index * buffer.layout.size ≤ place →
      place < (index + 1) * buffer.layout.size →
        later.byteAt after place = buffer.byteAt memory place) :
    later.slot after index = buffer.slot memory index := by
  unfold slot
  rw [layout]
  cases single : buffer.layout.singleItem? with
  | none => rfl
  | some item =>
      obtain ⟨offset, type⟩ := item
      have size_le := read.size_le single
      dsimp only
      congr 1
      unfold itemBytes
      rw [layout]
      apply List.map_congr_left
      intro place member
      have inside := List.mem_range.mp member
      refine same _ (by omega) ?_
      rw [Nat.succ_mul]
      omega

theorem elements_of_bytes (read : buffer.layout.IsRead) (layout : later.layout = buffer.layout)
    (count : later.count = buffer.count)
    (same : ∀ place, place < buffer.count * buffer.layout.size →
      later.byteAt after place = buffer.byteAt memory place) :
    later.elements after = buffer.elements memory := by
  unfold elements
  rw [count]
  apply List.map_congr_left
  intro index member
  refine slot_of_bytes read layout fun place _ below => same place ?_
  exact Nat.lt_of_lt_of_le below (Nat.mul_le_mul_right _ (List.mem_range.mp member))

/-- A change that touches no byte of the memory that was there leaves the elements of every buffer
with a block in it. -/
theorem elements_of_changes (changed : Memory.ChangesWithin (fun _ _ => False) memory after)
    (housed : buffer.Housed) (held : buffer.Held memory) :
    buffer.elements after = buffer.elements memory := by
  apply elements_of_bytes housed.read rfl rfl
  intro place _
  exact byteAt_of_changes changed held (fun _ _ _ _ _ untouched => untouched) place

/-- Where elements can be read, the list of all elements is the one that the buffer gives. -/
theorem toList_eq_elements (housed : buffer.Housed) (held : buffer.Held memory)
    (readable : buffer.layout.isReadable = true)
    (single : buffer.layout.singleItem? = some (offset, type)) :
    buffer.toList memory = .ok (buffer.elements memory) memory := by
  unfold toList elements
  cases block : buffer.block with
  | none =>
      rw [housed.count_of_no_block block]
      rfl
  | some extent =>
      apply mapM_eq
      intro index member
      have inside := List.mem_range.mp member
      have size_le := housed.read.size_le single
      have room := Nat.le_trans (Nat.mul_le_mul_right buffer.layout.size inside) housed.room
      rw [blockSize_of_block block, Nat.succ_mul] at room
      rw [element_answer, elementFound, readable, single]
      simp only [Bool.not_true, Bool.false_eq_true, ↓reduceIte, answer, slot, single]
      rw [load_eq_itemBytes block (held extent block) (by omega)]

/-! ## Storing -/

theorem held_clearAt (held : buffer.Held memory) (start count : Nat) :
    buffer.Held (buffer.clearAt start count memory) := by
  intro extent known
  unfold clearAt
  rw [known]
  exact (Memory.changesWithin_zero memory extent.storage _ count).holds (held extent known)

theorem slot_storeAt_self {index : Nat} (read : buffer.layout.IsRead)
    (single : buffer.layout.singleItem? = some (offset, type)) (held : buffer.Held memory)
    (room : (index + 1) * buffer.layout.size ≤ buffer.blockSize) (bytes : Bytes) :
    buffer.slot (buffer.storeAt index offset bytes memory) index =
      type.decode buffer.layout.bigEndian
        ((bytes ++ List.replicate type.size 0).take type.size) := by
  have size_le := read.size_le single
  rw [Nat.succ_mul] at room
  simp only [slot, single]
  congr 1
  apply List.ext_getElem
  · simp only [itemBytes, List.length_map, List.length_range, List.length_take, List.length_append,
      List.length_replicate]
    omega
  · intro place inside _
    simp only [itemBytes, List.length_map, List.length_range] at inside
    simp only [itemBytes, List.getElem_map, List.getElem_range, List.getElem_take]
    rw [storeAt, byteAt_writeAt_inside (held_clearAt held _ _) (by omega), if_pos (by omega),
      byteAt_clearAt held, if_pos (by omega), Nat.add_sub_cancel_left, List.getElem_append]
    by_cases stored : place < bytes.length
    · rw [dif_pos stored, List.getElem?_eq_getElem stored]
      rfl
    · rw [dif_neg stored, List.getElem?_eq_none (Nat.le_of_not_lt stored), List.getElem_replicate]
      rfl

/-- Other elements show what they showed. For those behind it, the bytes have to stay in the
element. -/
theorem slot_storeAt_other {index other : Nat} {bytes : Bytes} (read : buffer.layout.IsRead)
    (held : buffer.Held memory) (room : (other + 1) * buffer.layout.size ≤ buffer.blockSize)
    (different : other ≠ index)
    (inside : index < other → offset + bytes.length ≤ buffer.layout.size) :
    buffer.slot (buffer.storeAt index offset bytes memory) other = buffer.slot memory other := by
  apply slot_of_bytes read rfl
  intro place above below
  rw [storeAt, byteAt_writeAt_inside (held_clearAt held _ _) (Nat.lt_of_lt_of_le below room),
    byteAt_clearAt held]
  -- Elements in front are not reached at all. Those behind are only if the bytes stick out.
  rcases Nat.lt_or_gt_of_ne different with before | behind
  · have apart : (other + 1) * buffer.layout.size ≤ index * buffer.layout.size :=
      Nat.mul_le_mul_right _ before
    rw [if_neg (by omega), if_neg (by omega)]
  · have apart : (index + 1) * buffer.layout.size ≤ other * buffer.layout.size :=
      Nat.mul_le_mul_right _ behind
    have short := inside behind
    rw [Nat.succ_mul] at apart
    rw [if_pos (by omega), if_neg (by omega), List.getElem?_eq_none (by omega)]
    rfl

theorem elements_storeAt {index : Nat} {bytes : Bytes} (housed : buffer.Housed)
    (held : buffer.Held memory) (single : buffer.layout.singleItem? = some (offset, type))
    (known : index < buffer.count) (inside : offset + bytes.length ≤ buffer.layout.size) :
    buffer.elements (buffer.storeAt index offset bytes memory) =
      (buffer.elements memory).set index (type.decode buffer.layout.bigEndian
        ((bytes ++ List.replicate type.size 0).take type.size)) := by
  have room : ∀ other, other < buffer.count →
      (other + 1) * buffer.layout.size ≤ buffer.blockSize := fun other counts =>
    Nat.le_trans (Nat.mul_le_mul_right _ counts) housed.room
  apply List.ext_getElem
  · rw [List.length_set, length_elements, length_elements]
  · intro other counts _
    rw [length_elements] at counts
    rw [getElem_elements, List.getElem_set, getElem_elements]
    by_cases same : index = other
    · subst same
      rw [if_pos rfl, slot_storeAt_self housed.read single held (room index known)]
    · rw [if_neg same]
      exact slot_storeAt_other housed.read held (room other counts) (Ne.symm same) fun _ => inside

theorem elements_storeAt_count (housed : buffer.Housed) (held : buffer.Held memory)
    (bytes : Bytes) :
    buffer.elements (buffer.storeAt buffer.count offset bytes memory) =
      buffer.elements memory := by
  apply List.map_congr_left
  intro index member
  have counts := List.mem_range.mp member
  refine slot_storeAt_other housed.read held ?_ (Nat.ne_of_lt counts) fun behind => ?_
  · exact Nat.le_trans (Nat.mul_le_mul_right _ counts) housed.room
  · exact absurd behind (Nat.lt_asymm counts)

/-! ## Making room -/

/-- Making room may move the block, and then the bytes move with it. The elements that count are the
same before and after. -/
theorem Reserved.elements_eq {capacity : Int}
    (reserved : Reserved buffer memory capacity later after) (housed : buffer.Housed)
    (settled : buffer.Settled memory buffer.allocator) :
    later.elements after = buffer.elements memory :=
  elements_of_bytes housed.read reserved.advance.make.layout_eq reserved.count_eq
    fun place _ => reserved.byteAt_eq settled place

end Buffer

end LexKit
