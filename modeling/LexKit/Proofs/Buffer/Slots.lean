import LexKit.Proofs.Buffer.Element

/-!
# Slots

What a buffer is to those who use it: slots without end, and how many of them count. Each slot shows
the last value that was written to it, or what zeros stand for. Blocks, their sizes and their moves
are no part of this view. `Buffer.Shows` relates a buffer to the slots that it shows.
-/

set_option autoImplicit false

namespace LexKit

structure Slots where
  role : BufferRole
  layout : Layout
  count : Nat
  slot : Nat → Value

namespace Slots

def fresh (role : BufferRole) (layout : Layout) : Slots :=
  ⟨role, layout, 0, fun _ => layout.blank⟩

def values (slots : Slots) : List Value :=
  (List.range slots.count).map slots.slot

def write (slots : Slots) (index : Nat) (kept : Value) : Slots :=
  { slots with slot := fun other => if other = index then kept else slots.slot other }

def push? (slots : Slots) (value : Value) : Option Slots :=
  (slots.layout.kept? value).map fun kept =>
    { slots.write slots.count kept with count := slots.count + 1 }

def extend? : List Value → Slots → Option Slots
  | [], slots => some slots
  | value :: rest, slots => (slots.push? value).bind (extend? rest)

/-- The same values in slots of their own. What lies behind them does not come along. -/
def copied (slots : Slots) : Slots :=
  { slots with
    slot := fun index => if index < slots.count then slots.slot index else slots.layout.blank }

def place (slots : Slots) (index : Int) : Except Fault Nat :=
  if 0 ≤ index ∧ index < slots.count then .ok index.toNat
  else .error (.indexOutOfRange (.int index) slots.count)

def read (slots : Slots) (index : Nat) : Except Fault Value :=
  if slots.layout.isReadable then .ok (slots.slot index) else .error .unreadable

def list (slots : Slots) : Except Fault (List Value) :=
  if slots.count = 0 ∨ slots.layout.isReadable then .ok slots.values else .error .unreadable

def byteOf : Value → UInt8
  | .int number => UInt8.ofNat number.toNat
  | _ => 0

def bytes (slots : Slots) : Bytes :=
  slots.values.map byteOf

def ofBytes (bytes : Bytes) : List Value :=
  bytes.map fun byte => .int byte.toNat

/-- The bytes of an element lie inside of it, and a text is made of single bytes. -/
structure Regular (slots : Slots) : Prop where
  contains : ∃ offset type, slots.layout.Contains offset type
  text : slots.role = .text → slots.layout = Layout.byteLayout

variable {slots more : Slots} {value : Value}

theorem push?_eq_some (pushed : slots.push? value = some more) :
    ∃ kept, slots.layout.kept? value = some kept ∧
      more = { slots.write slots.count kept with count := slots.count + 1 } := by
  obtain ⟨kept, taken, rfl⟩ := Option.map_eq_some_iff.mp pushed
  exact ⟨kept, taken, rfl⟩

/-- A text takes all bytes. They come to stand behind its content. -/
theorem extend?_ofBytes (single : slots.layout = Layout.byteLayout) (bytes : Bytes) :
    slots.extend? (ofBytes bytes) = some { slots with
      count := slots.count + bytes.length
      slot := fun index =>
        if slots.count ≤ index then
          (bytes[index - slots.count]?.map fun byte => Value.int byte.toNat).getD (slots.slot index)
        else slots.slot index } := by
  induction bytes generalizing slots with
  | nil => simp [ofBytes, extend?]
  | cons byte rest ih =>
      have pushed : slots.push? (.int byte.toNat) = some
          { slots.write slots.count (.int byte.toNat) with count := slots.count + 1 } := by
        rw [push?, single, Layout.kept?_byteLayout]
        rfl
      have next : ({ slots.write slots.count (.int byte.toNat) with
          count := slots.count + 1 } : Slots).layout = Layout.byteLayout := single
      rw [ofBytes, List.map_cons, extend?, pushed, Option.bind_some, ← ofBytes, ih next]
      simp only [write, List.length_cons]
      refine congrArg some ?_
      rw [Slots.mk.injEq]
      refine ⟨rfl, rfl, by omega, ?_⟩
      funext index
      by_cases here : index = slots.count
      · subst here
        rw [if_neg (by omega), if_pos rfl, if_pos (Nat.le_refl _), Nat.sub_self,
          List.getElem?_cons_zero]
        rfl
      · by_cases later : slots.count ≤ index
        · obtain ⟨distance, rfl⟩ : ∃ distance, index = slots.count + 1 + distance :=
            ⟨index - (slots.count + 1), by omega⟩
          have near : slots.count + 1 + distance - (slots.count + 1) = distance := by omega
          have far : slots.count + 1 + distance - slots.count = distance + 1 := by omega
          rw [if_pos (by omega), if_pos later, near, far, List.getElem?_cons_succ, if_neg here]
        · rw [if_neg (by omega), if_neg here, if_neg later]

end Slots

namespace Buffer

/-- The buffer shows these slots. Its block has room for all that count. -/
structure Shows (buffer : Buffer) (memory : Memory) (slots : Slots) : Prop where
  role_eq : buffer.role = slots.role
  layout_eq : buffer.layout = slots.layout
  count_eq : buffer.count = slots.count
  slot_eq : ∀ index, buffer.slot memory index = slots.slot index
  room : buffer.count * buffer.layout.size ≤ buffer.blockSize
  regular : slots.Regular

variable {buffer later : Buffer} {memory after : Memory} {slots : Slots}

theorem Shows.contains (shows : buffer.Shows memory slots) :
    ∃ offset type, buffer.layout.Contains offset type := by
  rw [shows.layout_eq]
  exact shows.regular.contains

/-- What a buffer shows depends on its bytes alone. -/
theorem Shows.congr (shows : buffer.Shows memory slots)
    (same : ∀ place, buffer.byteAt after place = buffer.byteAt memory place) :
    buffer.Shows after slots := by
  obtain ⟨offset, type, contains⟩ := shows.contains
  refine ⟨shows.role_eq, shows.layout_eq, shows.count_eq, ?_, shows.room, shows.regular⟩
  intro index
  rw [slot_congr contains rfl fun place _ _ => same place, shows.slot_eq]

theorem shows_fresh (memory : Memory) (block : buffer.block = none) (count : buffer.count = 0)
    (regular : (Slots.fresh buffer.role buffer.layout).Regular) :
    buffer.Shows memory (Slots.fresh buffer.role buffer.layout) := by
  obtain ⟨offset, type, contains⟩ := regular.contains
  refine ⟨rfl, rfl, count, ?_, ?_, regular⟩
  · intro index
    exact slot_eq_blank contains fun place _ _ => byteAt_of_no_block block memory place
  · rw [count, Nat.zero_mul]
    exact Nat.zero_le _

theorem slot_byteLayout (single : buffer.layout = Layout.byteLayout) (memory : Memory)
    (index : Nat) : buffer.slot memory index = .int (buffer.byteAt memory index).toNat := by
  have contains : buffer.layout.Contains 0 (.integer false 1) := by
    rw [single]
    exact Layout.contains_byteLayout
  have size : buffer.layout.size = 1 := by
    rw [single]
    rfl
  have mark : buffer.layout.bigEndian = false := by
    rw [single]
    rfl
  have bytes : buffer.itemBytes memory index 0 (FieldType.integer false 1).size =
      [buffer.byteAt memory index] := by
    simp [itemBytes, FieldType.size, size]
  rw [slot_of_contains contains, bytes, mark]
  simp [FieldType.decode, FieldType.ofIntegerPattern, ofOrderedBytes, ofLittleEndian]

theorem byteOf_slot (single : buffer.layout = Layout.byteLayout) (memory : Memory) (index : Nat) :
    Slots.byteOf (buffer.slot memory index) = buffer.byteAt memory index := by
  rw [slot_byteLayout single, Slots.byteOf, Int.toNat_natCast, UInt8.ofNat_toNat]

/-- An operation turned `buffer` in `memory` into `later` in `after`, which shows the given slots.
It touched no byte of the block in front of the place `first`. -/
structure Acts (first : Nat) (buffer : Buffer) (memory : Memory) (later : Buffer) (after : Memory)
    (slots : Slots) : Prop where
  advance : Advance (buffer.Tail first) buffer memory later after
  blockSize_le : buffer.blockSize ≤ later.blockSize
  shows : later.Shows after slots

/-- Two actions in a row act like one. It begins where the first of them does. -/
theorem Acts.trans {first second : Nat} {last : Buffer} {final : Memory} {more : Slots}
    (left : Acts first buffer memory later after slots)
    (right : Acts second later after last final more) (le : first ≤ second) :
    Acts first buffer memory last final more :=
  ⟨left.advance.trans right.advance fun _ _ known tail =>
      left.advance.tail_covers known (tail.mono le),
    Nat.le_trans left.blockSize_le right.blockSize_le, right.shows⟩

theorem Acts.mono {first lower : Nat} (acts : Acts first buffer memory later after slots)
    (le : lower ≤ first) : Acts lower buffer memory later after slots :=
  ⟨acts.advance.mono fun _ _ tail => tail.mono le, acts.blockSize_le, acts.shows⟩

end Buffer

end LexKit
