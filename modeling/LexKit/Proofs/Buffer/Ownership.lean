import LexKit.Proofs.Buffer.Access

/-!
# Making, copying and moving buffers

A new buffer shows fresh slots. A copy shows the values of the first buffer in a block of its own; a
buffer that was moved out is the first one, and what is left of that one shows fresh slots, as does
a released one.
-/

set_option autoImplicit false

namespace LexKit.Buffer

open Running

variable {buffer later : Buffer} {memory after : Memory} {slots : Slots}

def emptied (buffer : Buffer) : Buffer :=
  { buffer with block := none, count := 0, isInline := false }

theorem shows_emptied (memory : Memory) (buffer : Buffer)
    (regular : (Slots.fresh buffer.role buffer.layout).Regular) :
    buffer.emptied.Shows memory (Slots.fresh buffer.role buffer.layout) :=
  shows_fresh memory rfl rfl regular

theorem Shows.fresh_regular (shows : buffer.Shows memory slots) :
    (Slots.fresh buffer.role buffer.layout).Regular := by
  rw [shows.role_eq, shows.layout_eq]
  exact ⟨shows.regular.contains, shows.regular.text⟩

theorem settled_emptied (buffer : Buffer) (memory : Memory) (id : AllocatorId) :
    buffer.emptied.Settled memory id := by
  intro extent known
  cases known

theorem advance_emptied (changed : Memory.ChangesWithin (fun _ _ => False) memory after) :
    Advance (buffer.Tail 0) buffer memory buffer.emptied after := by
  refine ⟨⟨rfl, rfl, rfl, rfl⟩, ?_, ?_, fun _ => settled_emptied buffer after _⟩
  · exact changed.mono fun _ _ _ untouched => untouched.elim
  · intro extent known
    cases known

/-! ## Making -/

/-- What making a buffer does: at most a storage is new, and the buffer shows fresh slots. -/
structure Made (blank : Buffer) (memory : Memory) (made : Buffer) (after : Memory) : Prop where
  changed : Memory.ChangesWithin (fun _ _ => False) memory after
  acts : Acts 0 blank memory made after (Slots.fresh blank.role blank.layout)
  make : SameMake blank made
  count_eq : made.count = 0

theorem advance_of_addStorage (fits : memory.Fits buffer.allocator) (size : Nat) :
    Advance (buffer.emptied.Tail 0) buffer.emptied memory
      { buffer.emptied with
        block := some ⟨(memory.addStorage (Storage.zeros size)).1, 0, size⟩
        isInline := true }
      (memory.addStorage (Storage.zeros size)).2 := by
  have changed : Memory.ChangesWithin (fun _ _ => False) memory
      (memory.addStorage (Storage.zeros size)).2 :=
    Memory.changesWithin_addStorage _ memory _
  refine ⟨⟨rfl, rfl, rfl, rfl⟩, changed.mono ?_, ?_, ?_⟩
  · intro storage index _ untouched
    exact untouched.elim
  · intro extent known
    cases known
    refine .inr ?_
    rintro storage index ⟨rfl, -⟩
    exact .inl (Nat.le_refl _)
  · intro _ extent known
    cases known
    refine ⟨Memory.holds_addStorage memory size, ?_⟩
    rintro storage index ⟨rfl, -⟩ remains
    exact Nat.lt_irrefl _ (fits.storage_lt_of_remaining (changed.remaining _ _ _ remains))

private theorem made_of_addStorage (fits : memory.Fits buffer.allocator)
    (regular : (Slots.fresh buffer.role buffer.layout).Regular) (size : Nat) :
    Made buffer.emptied memory
      { buffer.emptied with
        block := some ⟨(memory.addStorage (Storage.zeros size)).1, 0, size⟩
        isInline := true }
      (memory.addStorage (Storage.zeros size)).2 := by
  refine ⟨Memory.changesWithin_addStorage _ memory _,
    ⟨advance_of_addStorage fits size, Nat.zero_le _, ?_⟩, ⟨rfl, rfl, rfl, rfl⟩, rfl⟩
  obtain ⟨offset, type, contains⟩ := regular.contains
  refine ⟨rfl, rfl, rfl, ?_, ?_, regular⟩
  · intro index
    refine slot_eq_blank (?_ : Layout.Contains _ offset type) ?_
    · exact contains
    · intro place _ _
      rw [byteAt_of_block rfl, Memory.storage_addStorage_new, Storage.byte_zeros]
      split <;> rfl
  · change 0 * _ ≤ _
    rw [Nat.zero_mul]
    exact Nat.zero_le _

theorem supplied_spawn (fits : memory.Fits buffer.allocator)
    (regular : (Slots.fresh buffer.role buffer.layout).Regular) :
    Supplied (buffer.spawn memory) fun made after => Made buffer.emptied memory made after := by
  unfold spawn create
  by_cases inline : buffer.inlineCapacity > 0
  · rcases Memory.newStorage_cases (buffer.inlineCapacity * buffer.layout.size) memory with
      ⟨fault, refused, short⟩ | supplied
    · simp only [inline, ↓reduceIte, run_bind, refused]
      exact short
    · simp only [inline, ↓reduceIte, run_bind, supplied, run_pure]
      exact made_of_addStorage fits regular _
  · simp only [inline, ↓reduceIte, run_pure]
    exact ⟨.refl _ memory, ⟨.refl _ buffer.emptied memory, Nat.le_refl _,
      shows_emptied memory buffer regular⟩, .refl buffer.emptied, rfl⟩

/-! ## Copying -/

theorem rawBytes_eq (holds : ∀ extent, buffer.block = some extent → memory.Holds extent) :
    buffer.rawBytes memory = (List.range buffer.blockSize).map (buffer.byteAt memory) := by
  cases known : buffer.block with
  | none =>
      rw [blockSize_of_no_block known, rawBytes, known]
      rfl
  | some extent =>
      have stop_le := (holds extent known).stop_le
      rw [Extent.stop] at stop_le
      rw [blockSize_of_block known, rawBytes, known]
      dsimp only [Memory.read]
      apply List.ext_getElem
      · rw [Storage.length_read, List.length_map, List.length_range]
        omega
      · intro place _ inside
        rw [List.length_map, List.length_range] at inside
        rw [List.getElem_map, List.getElem_range, byteAt_of_block known, if_pos inside]
        exact Storage.getElem_read _

private theorem byteAt_copied {clone : Buffer} {between : Memory}
    (holds : ∀ extent, buffer.block = some extent → memory.Holds extent)
    (holdsClone : ∀ extent, clone.block = some extent → between.Holds extent) {size : Nat}
    (room : size ≤ clone.blockSize) (within : size ≤ buffer.blockSize) (place : Nat) :
    clone.byteAt (clone.writeAt 0 ((buffer.rawBytes memory).take size) between) place =
      if place < size then buffer.byteAt memory place else clone.byteAt between place := by
  have length : ((buffer.rawBytes memory).take size).length = size := by
    rw [rawBytes_eq holds, List.length_take, List.length_map, List.length_range]
    omega
  rw [byteAt_writeAt holdsClone (by omega), if_pos (Nat.zero_le _), Nat.sub_zero]
  split
  · rename_i inside
    rw [List.getElem?_take_of_lt inside, rawBytes_eq holds, List.getElem?_map,
      List.getElem?_range (by omega)]
    rfl
  · rw [List.getElem?_eq_none (by omega)]
    rfl

theorem changesWithin_writeAt_take {size : Nat} (room : size ≤ buffer.blockSize) (bytes : Bytes)
    (memory : Memory) :
    Memory.ChangesWithin (buffer.Tail 0) memory (buffer.writeAt 0 (bytes.take size) memory) := by
  refine changesWithin_writeAt ?_ memory
  rw [List.length_take, Nat.zero_add]
  exact Nat.le_trans (Nat.min_le_left _ _) room

/-- A copy is a reservation in a blank buffer with one write behind it. The room is that of the
whole block, and the bytes are those that count. -/
theorem copy_eq (buffer : Buffer) (memory : Memory) (sized : 0 < buffer.layout.size) :
    buffer.copy memory =
      match buffer.spawn memory with
      | .error fault after => .error fault after
      | .ok blank made =>
          match blank.reserve (buffer.blockSize / buffer.layout.size : Nat) made with
          | .error fault after => .error fault after
          | .ok clone between =>
              .ok { clone with count := buffer.count }
                (match buffer.block with
                | some _ => clone.writeAt 0
                    ((buffer.rawBytes between).take (buffer.count * buffer.layout.size)) between
                | none => between) := by
  simp only [copy, capacity_eq sized, run_bind, run_ofExcept_ok]
  cases buffer.spawn memory with
  | error fault after => rfl
  | ok blank made =>
      dsimp only
      cases blank.reserve (buffer.blockSize / buffer.layout.size : Nat) made with
      | error fault after => rfl
      | ok clone between =>
          dsimp only
          unfold rawBytes writeAt
          cases buffer.block with
          | none => rfl
          | some source =>
              cases clone.block with
              | none => rfl
              | some target => rfl

private theorem slot_copied {clone : Buffer} {between final : Memory}
    (shows : buffer.Shows memory slots)
    (showsClone : clone.Shows between (Slots.fresh buffer.role buffer.layout))
    (byte : ∀ place, clone.byteAt final place =
      if place < buffer.count * buffer.layout.size then buffer.byteAt memory place
      else clone.byteAt between place) (index : Nat) :
    clone.slot final index = slots.copied.slot index := by
  obtain ⟨offset, type, contains⟩ := shows.contains
  have layout : clone.layout = buffer.layout := showsClone.layout_eq
  by_cases inside : index < slots.count
  · have value : slots.copied.slot index = buffer.slot memory index := by
      rw [shows.slot_eq]
      exact if_pos inside
    rw [value]
    refine slot_congr contains layout fun place _ below => ?_
    have within : place < buffer.count * buffer.layout.size := by
      rw [← shows.count_eq] at inside
      exact Nat.lt_of_lt_of_le below (Nat.mul_le_mul_right _ inside)
    rw [byte, if_pos within]
  · have value : slots.copied.slot index = clone.slot between index := by
      rw [showsClone.slot_eq, Slots.fresh, shows.layout_eq]
      exact if_neg inside
    rw [value]
    rw [← layout] at contains
    refine slot_congr contains rfl fun place above _ => ?_
    have beyond : ¬place < buffer.count * buffer.layout.size := by
      rw [layout] at above
      rw [← shows.count_eq] at inside
      exact Nat.not_lt_of_le
        (Nat.le_trans (Nat.mul_le_mul_right _ (Nat.not_lt.mp inside)) above)
    rw [byte, if_neg beyond]

private theorem acts_copied {clone : Buffer} {between : Memory} (ready : buffer.Ready memory)
    (shows : buffer.Shows memory slots)
    (acts : Acts 0 buffer.emptied memory clone between (Slots.fresh buffer.role buffer.layout))
    (room : buffer.count * buffer.layout.size ≤ clone.blockSize) :
    Acts 0 buffer.emptied memory { clone with count := buffer.count }
      (match buffer.block with
      | some _ => clone.writeAt 0
          ((buffer.rawBytes between).take (buffer.count * buffer.layout.size)) between
      | none => between) slots.copied := by
  have make := acts.advance.make
  have readyClone : clone.Ready between :=
    acts.advance.ready ⟨ready.fits, settled_emptied buffer memory _⟩
  have layout : clone.layout = buffer.layout := make.layout_eq
  have copied : slots.copied = { slots.copied with count := buffer.count } := by
    rw [shows.count_eq]
    rfl
  have roomy : buffer.count * clone.layout.size ≤ clone.blockSize := by rwa [layout]
  cases block : buffer.block with
  | none =>
      have none_counts := shows.count_of_no_block block
      have same : Slots.fresh buffer.role buffer.layout = { slots.copied with count := 0 } := by
        simp only [Slots.fresh, Slots.copied, none_counts, shows.role_eq, shows.layout_eq,
          Nat.not_lt_zero, ↓reduceIte]
      rw [same] at acts
      rw [copied]
      exact acts.recount roomy
  | some source =>
      have holds : ∀ extent, buffer.block = some extent → between.Holds extent :=
        fun extent known => acts.advance.changed.holds (ready.holds known)
      have wrote := changesWithin_writeAt_take room (buffer.rawBytes between) between
      have advance := acts.advance.trans (advance_of_changes clone wrote)
        fun _ _ known tail => acts.advance.tail_covers known tail
      have unchanged := byteAt_of_changes acts.advance.changed (fun _ => ready.holds) (by
        rintro extent known storage index covered (tail | remains)
        · obtain ⟨_, absent, -⟩ := tail
          cases absent
        · exact (ready.settled extent known).taken storage index covered remains)
      have byte := byteAt_copied holds (fun _ => readyClone.holds) room shows.room
      simp only [unchanged] at byte
      have slot := slot_copied shows acts.shows byte
      exact ⟨advance.recount _, acts.blockSize_le, make.role_eq.trans shows.role_eq,
        layout.trans shows.layout_eq, shows.count_eq, slot, roomy,
        ⟨shows.regular.contains, shows.regular.text⟩⟩

theorem supplied_copy (ready : buffer.Ready memory) (shows : buffer.Shows memory slots) :
    Supplied (buffer.copy memory) fun clone after =>
      Acts 0 buffer.emptied memory clone after slots.copied := by
  obtain ⟨offset, type, contains⟩ := shows.contains
  have positive := contains.positive
  have spawned := supplied_spawn ready.fits shows.fresh_regular
  rw [copy_eq buffer memory positive]
  cases first : buffer.spawn memory with
  | error fault after =>
      rw [first] at spawned
      exact spawned
  | ok blank made =>
      rw [first] at spawned
      have creation : Made buffer.emptied memory blank made := spawned
      have make := creation.make
      have readyBlank : blank.Ready made :=
        creation.acts.advance.ready ⟨ready.fits, settled_emptied buffer memory _⟩
      have sized : 0 < blank.layout.size := by
        rw [make.layout_eq]
        exact positive
      have grown := supplied_reserve readyBlank sized (buffer.blockSize / buffer.layout.size : Nat)
      dsimp only
      cases second : blank.reserve (buffer.blockSize / buffer.layout.size : Nat) made with
      | error fault after =>
          rw [second] at grown
          exact grown
      | ok clone between =>
          rw [second] at grown
          have reserved : Reserved blank made (buffer.blockSize / buffer.layout.size : Nat) clone
            between := grown
          exact acts_copied ready shows
            (creation.acts.trans (reserved.acts readyBlank creation.acts.shows 0) (Nat.le_refl 0))
            (by
              have room := reserved.room
              rw [make.layout_eq] at room
              have within := (Nat.le_div_iff_mul_le positive).mpr shows.room
              exact Nat.le_trans (Nat.mul_le_mul_right _ within) (by exact_mod_cast room))

/-! ## Moving -/

/-- The buffer that is moved out is the first one, and that one is left without a block. -/
theorem supplied_take (ready : buffer.Ready memory) (shows : buffer.Shows memory slots) :
    Supplied (buffer.take memory) fun taken after =>
      taken = (buffer, buffer.emptied) ∧ Memory.ChangesWithin (fun _ _ => False) memory after := by
  have spawned := supplied_spawn ready.fits shows.fresh_regular
  simp only [take, run_bind, run_pure]
  cases first : buffer.spawn memory with
  | error fault after =>
      rw [first] at spawned
      exact spawned
  | ok moved after =>
      rw [first] at spawned
      have creation : Made buffer.emptied memory moved after := spawned
      obtain ⟨allocator_eq, role_eq, layout_eq, inlineCapacity_eq⟩ := creation.make
      refine ⟨?_, creation.changed⟩
      rw [allocator_eq, role_eq, layout_eq, inlineCapacity_eq]
      rfl

/-- A release cannot fail. It may give a block back, but it changes no byte of the memory. -/
theorem release_eq (buffer : Buffer) (memory : Memory) :
    ∃ after, buffer.release memory = .ok buffer.emptied after ∧
      Memory.ChangesWithin (fun _ _ => False) memory after := by
  unfold release dropBlock
  cases block : buffer.block with
  | none => exact ⟨memory, rfl, .refl _ memory⟩
  | some extent =>
      cases inline : buffer.isInline with
      | true => exact ⟨memory, rfl, .refl _ memory⟩
      | false => exact ⟨_, rfl, Memory.changesWithin_record _ memory _⟩

end LexKit.Buffer
