import LexKit.Buffer.Basic
import LexKit.Proofs.Memory.Allocation
import LexKit.Proofs.Running

/-!
# Growth of buffers

What a buffer holds is described byte by byte: `byteAt` gives the byte at a place of its block, and
zero at the places behind it. Growth keeps every such byte, although it moves the block. `Advance`
says of any operation that it touched nothing that another buffer may have: bytes of its own block,
and bytes that its allocator had left.
-/

set_option autoImplicit false

namespace LexKit.Buffer

open Running

/-- The byte at a place of the block. Behind the block there are zeros. -/
def byteAt (buffer : Buffer) (memory : Memory) (place : Nat) : UInt8 :=
  match buffer.block with
  | some extent =>
      if place < extent.size then (memory.storage extent.storage).byte (extent.start + place) else 0
  | none => 0

def Held (buffer : Buffer) (memory : Memory) : Prop :=
  ∀ extent, buffer.block = some extent → memory.Holds extent

/-- The block lies in a storage, outside of what the allocator has left. -/
def Settled (buffer : Buffer) (memory : Memory) (id : AllocatorId) : Prop :=
  ∀ extent, buffer.block = some extent → memory.Settled id extent

theorem Settled.held {buffer : Buffer} {memory : Memory} {id : AllocatorId}
    (settled : buffer.Settled memory id) : buffer.Held memory :=
  fun extent known => (settled extent known).holds

structure SameMake (buffer later : Buffer) : Prop where
  allocator_eq : later.allocator = buffer.allocator
  role_eq : later.role = buffer.role
  layout_eq : later.layout = buffer.layout
  inlineCapacity_eq : later.inlineCapacity = buffer.inlineCapacity

theorem SameMake.refl (buffer : Buffer) : SameMake buffer buffer :=
  ⟨rfl, rfl, rfl, rfl⟩

/-- Layout, allocator and inline capacity never change, through however many operations. -/
theorem SameMake.trans {first second third : Buffer} (left : SameMake first second)
    (right : SameMake second third) : SameMake first third :=
  ⟨right.allocator_eq.trans left.allocator_eq, right.role_eq.trans left.role_eq,
    right.layout_eq.trans left.layout_eq, right.inlineCapacity_eq.trans left.inlineCapacity_eq⟩

/-- The bytes were in no storage, or were left in the arena. -/
def Fresh (memory : Memory) (id : AllocatorId) (extent : Extent) : Prop :=
  ∀ storage index, extent.Covers storage index →
    memory.storages.size ≤ storage.index ∨ memory.Remaining id storage index

/-- An operation turned `buffer` in `memory` into `later` in `after`. It touched the given bytes at
most, and bytes that the allocator had left; a block that it obtained is made of such bytes. -/
structure Advance (touched : StorageId → Nat → Prop) (buffer : Buffer) (memory : Memory)
    (later : Buffer) (after : Memory) : Prop where
  make : SameMake buffer later
  changed : Memory.ChangesWithin
    (fun storage index => touched storage index ∨ memory.Remaining buffer.allocator storage index)
    memory after
  block : ∀ extent, later.block = some extent →
    buffer.block = some extent ∨ Fresh memory buffer.allocator extent
  settled : buffer.Settled memory buffer.allocator → later.Settled after buffer.allocator

namespace Advance

variable {touched : StorageId → Nat → Prop} {buffer later : Buffer} {memory after : Memory}

theorem refl (touched : StorageId → Nat → Prop) (buffer : Buffer) (memory : Memory) :
    Advance touched buffer memory buffer memory :=
  ⟨.refl buffer, .refl _ memory, fun _ known => .inl known, fun settled => settled⟩

theorem fits (advance : Advance touched buffer memory later after) {id : AllocatorId}
    (fits : memory.Fits id) : after.Fits id :=
  advance.changed.fits id fits

/-- Two operations one after the other. What the second one touches has to be touched by the first
one or be new to it. -/
theorem trans {second : StorageId → Nat → Prop} {last : Buffer} {final : Memory}
    (left : Advance touched buffer memory later after)
    (right : Advance second later after last final)
    (covers : ∀ (storage : StorageId) (index : Nat), storage.index < memory.storages.size →
      second storage index →
        touched storage index ∨ memory.Remaining buffer.allocator storage index) :
    Advance touched buffer memory last final := by
  have same := left.make.allocator_eq
  have back : ∀ extent,
      Fresh after buffer.allocator extent → Fresh memory buffer.allocator extent := by
    intro extent fresh storage index covered
    rcases fresh storage index covered with new | remains
    · exact .inl (Nat.le_trans left.changed.count_le new)
    · exact .inr (left.changed.remaining buffer.allocator storage index remains)
  refine ⟨left.make.trans right.make, left.changed.trans right.changed ?_, ?_, ?_⟩
  · intro storage index known also
    rcases also with also | remains
    · exact covers storage index known also
    · rw [same] at remains
      exact .inr (left.changed.remaining buffer.allocator storage index remains)
  · intro extent known
    rcases right.block extent known with kept | fresh
    · exact left.block extent kept
    · rw [same] at fresh
      exact .inr (back extent fresh)
  · intro settled
    have between := left.settled settled
    rw [← same] at between ⊢
    exact right.settled between

theorem mono {wider : StorageId → Nat → Prop} (advance : Advance touched buffer memory later after)
    (covers : ∀ (storage : StorageId) (index : Nat), touched storage index → wider storage index) :
    Advance wider buffer memory later after := by
  refine ⟨advance.make, advance.changed.mono ?_, advance.block, advance.settled⟩
  intro storage index _ also
  rcases also with also | remains
  · exact .inl (covers storage index also)
  · exact .inr remains

theorem recount (advance : Advance touched buffer memory later after) (count : Nat) :
    Advance touched buffer memory { later with count } after :=
  ⟨⟨advance.make.allocator_eq, advance.make.role_eq, advance.make.layout_eq,
    advance.make.inlineCapacity_eq⟩, advance.changed, advance.block, advance.settled⟩

end Advance

/-! ## Reserving -/

/-- The memory behind a move of the block to an extent: the bytes of the block are copied, and the
block is given back if the allocator supplied it. -/
def relocated (buffer : Buffer) (extent : Extent) (memory : Memory) : Memory :=
  match buffer.block with
  | none => memory
  | some old =>
      let copied := memory.write extent.storage extent.start (memory.read old)
      if buffer.isInline then copied
      else
        copied.record (.free buffer.allocator (Block.ofExtent old)
          (copied.takesBack buffer.allocator (Block.ofExtent old)))

theorem reserve_eq {buffer : Buffer} (sized : buffer.layout.size ≠ 0) (capacity : Int)
    (memory : Memory) :
    buffer.reserve capacity memory =
      if capacity ≤ (buffer.blockSize / buffer.layout.size : Nat) then .ok buffer memory
      else
        match Memory.allocate buffer.allocator (capacity * buffer.layout.size) memory with
        | .ok extent after =>
            .ok { buffer with block := some extent, isInline := false }
              (buffer.relocated extent after)
        | .error fault after => .error fault after := by
  simp only [reserve, Buffer.capacity, sized, ↓reduceIte, run_bind, run_ofExcept_ok, run_ite,
    run_pure]
  split
  · rfl
  · cases Memory.allocate buffer.allocator (capacity * buffer.layout.size) memory with
    | error fault after => rfl
    | ok extent after =>
        unfold relocated dropBlock
        cases known : buffer.block with
        | none => rfl
        | some old =>
            cases inline : buffer.isInline with
            | false => rfl
            | true => rfl

theorem reserve_unsized {buffer : Buffer} (unsized : buffer.layout.size = 0) (capacity : Int)
    (memory : Memory) : buffer.reserve capacity memory = .error .zeroItemSize memory := by
  simp only [reserve, Buffer.capacity, unsized, ↓reduceIte, run_bind, run_ofExcept_error]

theorem byteAt_of_block {buffer : Buffer} {extent : Extent} (known : buffer.block = some extent)
    (memory : Memory) (place : Nat) :
    buffer.byteAt memory place =
      if place < extent.size then (memory.storage extent.storage).byte (extent.start + place)
      else 0 := by
  rw [byteAt, known]

theorem byteAt_of_no_block {buffer : Buffer} (absent : buffer.block = none) (memory : Memory)
    (place : Nat) : buffer.byteAt memory place = 0 := by
  rw [byteAt, absent]

theorem blockSize_of_block {buffer : Buffer} {extent : Extent}
    (known : buffer.block = some extent) : buffer.blockSize = extent.size := by
  rw [blockSize, known]

theorem blockSize_of_no_block {buffer : Buffer} (absent : buffer.block = none) :
    buffer.blockSize = 0 := by
  rw [blockSize, absent]

theorem byteAt_outside {buffer : Buffer} {place : Nat} (outside : buffer.blockSize ≤ place)
    (memory : Memory) : buffer.byteAt memory place = 0 := by
  cases known : buffer.block with
  | none => exact byteAt_of_no_block known memory place
  | some extent =>
      rw [blockSize_of_block known] at outside
      rw [byteAt_of_block known, if_neg (Nat.not_lt_of_le outside)]

/-- A buffer whose block the allocator does not have, and of whose block nothing was touched, holds
what it held. -/
theorem byteAt_of_changes {touched : StorageId → Nat → Prop} {buffer : Buffer}
    {memory after : Memory} (changed : Memory.ChangesWithin touched memory after)
    (holds : ∀ extent, buffer.block = some extent → memory.Holds extent)
    (untouched : ∀ extent, buffer.block = some extent → ∀ storage index,
      extent.Covers storage index → ¬touched storage index) (place : Nat) :
    buffer.byteAt after place = buffer.byteAt memory place := by
  cases known : buffer.block with
  | none => rw [byteAt_of_no_block known, byteAt_of_no_block known]
  | some extent =>
      rw [byteAt_of_block known, byteAt_of_block known]
      split
      · refine changed.byte_eq _ _ (holds extent known).storage_lt (untouched extent known _ _ ?_)
        exact ⟨rfl, Nat.le_add_right _ _, by simp only [Extent.stop]; omega⟩
      · rfl

private theorem relocated_changes (buffer : Buffer) {extent : Extent} (memory : Memory)
    (room : buffer.blockSize ≤ extent.size) :
    Memory.ChangesWithin extent.Covers memory (buffer.relocated extent memory) := by
  unfold relocated
  cases known : buffer.block with
  | none => exact .refl _ memory
  | some old =>
      rw [blockSize_of_block known] at room
      have copied : Memory.ChangesWithin extent.Covers memory
          (memory.write extent.storage extent.start (memory.read old)) := by
        refine (Memory.changesWithin_write memory extent.storage extent.start _).mono ?_
        rintro storage index - ⟨rfl, above, below⟩
        refine ⟨rfl, above, Nat.lt_of_lt_of_le below ?_⟩
        simp only [Memory.read, Storage.length_read, Extent.stop]
        omega
      dsimp only
      split
      · exact copied
      · exact copied.trans (Memory.changesWithin_record extent.Covers _ _) fun _ _ _ also => also

private theorem byte_relocated {buffer : Buffer} {extent : Extent} {memory after : Memory}
    {id : AllocatorId} {size : Int} (granted : Memory.Granted memory id size extent after)
    (settled : buffer.Settled memory id) (room : buffer.blockSize ≤ extent.size) {place : Nat}
    (inside : place < extent.size) :
    ((buffer.relocated extent after).storage extent.storage).byte (extent.start + place) =
      buffer.byteAt memory place := by
  unfold relocated
  cases known : buffer.block with
  | none => rw [byteAt_of_no_block known, granted.byte_eq_zero inside]
  | some old =>
      have kept := granted.read_eq (settled old known)
      have length : (memory.read old).length = old.size := by
        have stop_le := (settled old known).holds.stop_le
        rw [Extent.stop] at stop_le
        rw [Memory.read, Storage.length_read]
        omega
      have copied : ((after.write extent.storage extent.start (memory.read old)).storage
          extent.storage).byte (extent.start + place) = buffer.byteAt memory place := by
        rw [Memory.storage_write_self granted.holds.storage_lt, byteAt_of_block known]
        have stop_le := granted.holds.stop_le
        rw [Extent.stop] at stop_le
        rw [blockSize_of_block known] at room
        split
        · rename_i held
          rw [← length] at held
          rw [Storage.byte_write_inside held (by omega)]
          exact Storage.getElem_read _
        · rename_i beyond
          rw [Storage.byte_write_outside (.inr (by omega)), granted.byte_eq_zero inside]
      dsimp only
      rw [kept]
      split
      · exact copied
      · exact copied

/-- What reserving does: the block may move, and then it is made of fresh bytes. Every place holds
the byte that it held, unless the block was among the bytes that the allocator had left. -/
structure Reserved (buffer : Buffer) (memory : Memory) (capacity : Int) (later : Buffer)
    (after : Memory) : Prop where
  advance : Advance (fun _ _ => False) buffer memory later after
  count_eq : later.count = buffer.count
  room : capacity * buffer.layout.size ≤ later.blockSize
  blockSize_le : buffer.blockSize ≤ later.blockSize
  held : buffer.Held memory → later.Held after
  byteAt_eq : buffer.Settled memory buffer.allocator →
    ∀ place, later.byteAt after place = buffer.byteAt memory place

private theorem reserved_of_granted {buffer : Buffer} {memory between : Memory} {capacity : Int}
    {extent : Extent}
    (granted :
      Memory.Granted memory buffer.allocator (capacity * buffer.layout.size) extent between)
    (room : buffer.blockSize ≤ extent.size) :
    Reserved buffer memory capacity { buffer with block := some extent, isInline := false }
      (buffer.relocated extent between) := by
  have moved := relocated_changes buffer between room
  have changed := granted.changed.trans moved fun _ _ _ also => also
  refine ⟨⟨⟨rfl, rfl, rfl, rfl⟩, ?_, ?_, ?_⟩, rfl, ?_, ?_, ?_, ?_⟩
  · refine changed.mono ?_
    intro storage index known covered
    rcases granted.fresh storage index covered with new | remains
    · exact absurd known (Nat.not_lt_of_le new)
    · exact .inr remains
  · intro extent same
    cases same
    exact .inr granted.fresh
  · intro _ extent same
    cases same
    exact moved.settled granted.settled
  · exact Int.le_of_eq granted.size_eq.symm
  · exact room
  · intro _ extent same
    cases same
    exact moved.holds granted.holds
  · intro settled place
    rw [byteAt_of_block rfl]
    split
    · rename_i inside
      exact byte_relocated granted settled room inside
    · rename_i beyond
      exact (byteAt_outside (by omega) memory).symm

theorem reserved_of_reserve {buffer later : Buffer} {memory after : Memory} {capacity : Int}
    (fits : memory.Fits buffer.allocator)
    (reserved : buffer.reserve capacity memory = .ok later after) :
    Reserved buffer memory capacity later after := by
  by_cases unsized : buffer.layout.size = 0
  · rw [reserve_unsized unsized] at reserved
    cases reserved
  · rw [reserve_eq unsized] at reserved
    split at reserved
    · rename_i enough
      cases reserved
      refine ⟨.refl _ buffer memory, rfl, ?_, Nat.le_refl _, fun held => held, fun _ _ => rfl⟩
      have whole := Nat.div_mul_le_self buffer.blockSize buffer.layout.size
      calc capacity * buffer.layout.size
          ≤ (buffer.blockSize / buffer.layout.size : Nat) * buffer.layout.size :=
            Int.mul_le_mul_of_nonneg_right enough (Int.natCast_nonneg _)
        _ ≤ buffer.blockSize := by exact_mod_cast whole
    · rename_i short
      split at reserved
      · rename_i extent between supplied
        cases reserved
        have granted := Memory.granted_of_allocate fits supplied
        have natural : 0 ≤ capacity :=
          Int.le_of_lt (Int.lt_of_le_of_lt (Int.natCast_nonneg _) (Int.not_le.mp short))
        obtain ⟨wanted, rfl⟩ := Int.eq_ofNat_of_zero_le natural
        have positive : 0 < buffer.layout.size := Nat.pos_of_ne_zero unsized
        have fewer : buffer.blockSize / buffer.layout.size < wanted := by omega
        have sizes : extent.size = wanted * buffer.layout.size := by
          exact_mod_cast granted.size_eq
        refine reserved_of_granted granted ?_
        rw [sizes]
        exact Nat.le_of_lt (Nat.lt_mul_of_div_lt fewer positive)
      · cases reserved

end LexKit.Buffer
