import LexKit.Memory.Storage

/-!
# Bytes of a storage

What each operation on a storage does to its size and to every single byte.
-/

set_option autoImplicit false

namespace LexKit.Storage

theorem byte_of_size_le {storage : Storage} {index : Nat} (outside : storage.size ≤ index) :
    storage.byte index = 0 := by
  have bound := storage.written_le
  unfold byte
  rw [Array.getD_eq_getD_getElem?, Array.getElem?_eq_none (by omega)]
  rfl

@[simp]
theorem size_zeros (size : Nat) : (zeros size).size = size :=
  rfl

@[simp]
theorem byte_zeros (size index : Nat) : (zeros size).byte index = 0 := by
  simp [zeros, byte]

@[simp]
theorem size_set (storage : Storage) (index : Nat) (byte : UInt8) :
    (storage.set index byte).size = storage.size := by
  unfold set
  split
  · split <;> rfl
  · rfl

private theorem byte_set_held {storage : Storage} {index : Nat} {byte : UInt8}
    (held : index < storage.written.size) (other : Nat) :
    (storage.written.set index byte).getD other 0 =
      if other = index then byte else storage.byte other := by
  rw [Array.getD_eq_getD_getElem?, Array.getElem?_set, LexKit.Storage.byte,
    Array.getD_eq_getD_getElem?]
  by_cases same : other = index
  · simp [same]
  · simp [same, Ne.symm same]

private theorem byte_set_grown {written : Array UInt8} {index : Nat} {byte : UInt8}
    (unheld : written.size ≤ index) (other : Nat) :
    ((written ++ Array.replicate (index - written.size) 0).push byte).getD other 0 =
      if other = index then byte else written.getD other 0 := by
  simp only [Array.getD_eq_getD_getElem?, Array.getElem?_push, Array.getElem?_append,
    Array.getElem?_replicate, Array.size_append, Array.size_replicate]
  grind

theorem byte_set (storage : Storage) (index other : Nat) (byte : UInt8) :
    (storage.set index byte).byte other =
      if other = index ∧ index < storage.size then byte else storage.byte other := by
  unfold set
  split
  · rename_i inside
    split
    · rename_i held
      rw [LexKit.Storage.byte, byte_set_held held]
      simp [inside]
    · rename_i unheld
      rw [LexKit.Storage.byte, byte_set_grown (Nat.le_of_not_lt unheld)]
      simp [inside, LexKit.Storage.byte]
  · rename_i outside
    simp [outside]

@[simp]
theorem size_write (storage : Storage) (start : Nat) (bytes : Bytes) :
    (storage.write start bytes).size = storage.size := by
  induction bytes generalizing storage start with
  | nil => rfl
  | cons byte rest ih => rw [write, ih, size_set]

theorem byte_write (storage : Storage) (start : Nat) (bytes : Bytes) (index : Nat) :
    (storage.write start bytes).byte index =
      if start ≤ index ∧ index < storage.size then bytes[index - start]?.getD (storage.byte index)
      else storage.byte index := by
  induction bytes generalizing storage start with
  | nil => simp [write]
  | cons head rest ih =>
      rw [write, ih, size_set, byte_set]
      by_cases first : index = start
      · subst first
        simp only [Nat.not_succ_le_self, false_and, ↓reduceIte, true_and, Nat.le_refl,
          Nat.sub_self, List.getElem?_cons_zero, Option.getD_some]
      · have later : start + 1 ≤ index ↔ start ≤ index := by omega
        simp only [first, later, false_and, ↓reduceIte]
        split
        · obtain ⟨distance, apart⟩ : ∃ distance, index = start + 1 + distance :=
            ⟨index - (start + 1), by omega⟩
          rw [apart, Nat.add_sub_cancel_left, Nat.add_assoc, Nat.add_sub_cancel_left,
            Nat.add_comm 1, List.getElem?_cons_succ]
        · rfl

/-- A write leaves every byte in front of its first place and behind its last one. -/
theorem byte_write_outside {storage : Storage} {start index : Nat} {bytes : Bytes}
    (outside : index < start ∨ start + bytes.length ≤ index) :
    (storage.write start bytes).byte index = storage.byte index := by
  rw [byte_write]
  split
  · rw [List.getElem?_eq_none (by omega)]
    rfl
  · rfl

theorem byte_write_inside {storage : Storage} {start place : Nat} {bytes : Bytes}
    (held : place < bytes.length) (inside : start + bytes.length ≤ storage.size) :
    (storage.write start bytes).byte (start + place) = bytes[place] := by
  rw [byte_write, if_pos (by omega), Nat.add_sub_cancel_left, List.getElem?_eq_getElem held]
  rfl

private theorem size_zeroFrom (storage : Storage) (start count : Nat) :
    (storage.zeroFrom start count).size = storage.size := by
  induction count generalizing storage start with
  | zero => rfl
  | succ count ih => rw [zeroFrom, ih, size_set]

private theorem byte_zeroFrom (storage : Storage) (start count index : Nat) :
    (storage.zeroFrom start count).byte index =
      if start ≤ index ∧ index < start + count then 0 else storage.byte index := by
  induction count generalizing storage start with
  | zero =>
      rw [zeroFrom, if_neg (by omega)]
  | succ count ih =>
      rw [zeroFrom, ih, byte_set]
      by_cases first : index = start
      · subst first
        have past : ¬index < storage.size → storage.byte index = 0 :=
          fun outside => byte_of_size_le (Nat.le_of_not_lt outside)
        by_cases inside : index < storage.size <;> simp [inside, past]
      · have later : start + 1 ≤ index ↔ start ≤ index := by omega
        have reach : start + 1 + count = start + (count + 1) := by omega
        simp only [first, later, reach, false_and, ↓reduceIte]

@[simp]
theorem size_zero (storage : Storage) (start count : Nat) :
    (storage.zero start count).size = storage.size :=
  size_zeroFrom storage start _

theorem byte_zero (storage : Storage) (start count index : Nat) :
    (storage.zero start count).byte index =
      if start ≤ index ∧ index < start + count then 0 else storage.byte index := by
  rw [zero, byte_zeroFrom]
  by_cases explicit : start ≤ index ∧ index < start + min count (storage.written.size - start)
  · rw [if_pos explicit, if_pos (by omega)]
  · rw [if_neg explicit]
    by_cases zeroed : start ≤ index ∧ index < start + count
    · rw [if_pos zeroed, byte, Array.getD_eq_getD_getElem?, Array.getElem?_eq_none (by omega)]
      rfl
    · rw [if_neg zeroed]

@[simp]
theorem length_read (storage : Storage) (start count : Nat) :
    (storage.read start count).length = min count (storage.size - start) := by
  simp [read]

theorem getElem_read {storage : Storage} {start count place : Nat}
    (held : place < (storage.read start count).length) :
    (storage.read start count)[place] = storage.byte (start + place) := by
  simp [read]

theorem read_congr {storage other : Storage} {start count : Nat} (size : storage.size = other.size)
    (same : ∀ index, start ≤ index → index < start + count →
      storage.byte index = other.byte index) :
    storage.read start count = other.read start count := by
  apply List.ext_getElem
  · rw [length_read, length_read, size]
  · intro place held _
    have bound := held
    rw [length_read] at bound
    rw [getElem_read, getElem_read]
    exact same _ (by omega) (by omega)

/-- Reading is byte by byte: bytes that stand one after the other in a storage are what a read of
their number gives. -/
theorem read_eq {storage : Storage} {start : Nat} {bytes : Bytes}
    (inside : start + bytes.length ≤ storage.size)
    (same : ∀ place (held : place < bytes.length), storage.byte (start + place) = bytes[place]) :
    storage.read start bytes.length = bytes := by
  apply List.ext_getElem
  · rw [length_read]
    omega
  · intro place held bound
    rw [getElem_read]
    exact same place bound

theorem read_zero_self {storage : Storage} {start count : Nat}
    (inside : start + count ≤ storage.size) :
    (storage.zero start count).read start count = List.replicate count 0 := by
  have zeros : (storage.zero start count).read start (List.replicate count (0 : UInt8)).length =
      List.replicate count 0 := by
    refine read_eq (by simpa using inside) ?_
    intro place held
    rw [List.length_replicate] at held
    rw [byte_zero, if_pos (by omega), List.getElem_replicate]
  rwa [List.length_replicate] at zeros

end LexKit.Storage
