import LexKit.Proofs.Buffer.Pushing

/-!
# Extending

Appending the elements of a buffer, which may be the same one, and appending bytes to a text. The
elements that are read lie where no push reaches: in front of the places behind the last element,
and outside of what the allocator has left.
-/

set_option autoImplicit false

namespace LexKit.Buffer

open Running

variable {buffer later source : Buffer} {memory after : Memory} {slots shown more : Slots}

/-! ## Reading elements -/

theorem element_eq {extent : Extent} {offset : Nat} {type : FieldType}
    (contains : source.layout.Contains offset type) (readable : source.layout.isReadable = true)
    (block : source.block = some extent) (holds : memory.Holds extent) {index : Nat}
    (room : (index + 1) * source.layout.size ≤ extent.size) :
    source.element extent index memory = .ok (source.slot memory index) memory := by
  rw [← load_eq_slot contains block holds room]
  simp only [element, readable, Bool.not_true, Bool.false_eq_true, ↓reduceIte, contains.single]
  rfl

theorem element_unreadable (unreadable : source.layout.isReadable = false) (extent : Extent)
    (index : Nat) : source.element extent index memory = .error .unreadable memory := by
  simp only [element, unreadable, Bool.not_false, ↓reduceIte, run_bind, run_throw]

theorem Shows.element_room (shows : source.Shows memory shown) {extent : Extent}
    (block : source.block = some extent) {index : Nat} (inside : index < source.count) :
    (index + 1) * source.layout.size ≤ extent.size := by
  have room := shows.room
  rw [blockSize_of_block block] at room
  exact Nat.le_trans (Nat.mul_le_mul_right _ inside) room

theorem Shows.count_of_no_block (shows : source.Shows memory shown) (block : source.block = none) :
    shown.count = 0 := by
  obtain ⟨offset, type, contains⟩ := shows.contains
  have room := shows.room
  rw [blockSize_of_no_block block] at room
  have positive := contains.positive
  rw [← shows.count_eq]
  exact (Nat.mul_eq_zero.mp (Nat.le_zero.mp room)).resolve_right (Nat.ne_of_gt positive)

/-! ## What pushes do not reach -/

structure Unreached (region : Extent) (buffer : Buffer) (memory : Memory) : Prop where
  settled : memory.Settled buffer.allocator region
  untouched : ∀ storage index, region.Covers storage index →
    ¬buffer.Tail (buffer.count * buffer.layout.size) storage index

theorem Unreached.acts {region : Extent} (unreached : Unreached region buffer memory)
    (acts : Acts (buffer.count * buffer.layout.size) buffer memory later after more)
    (grown : buffer.count ≤ more.count) : Unreached region later after := by
  refine ⟨?_, ?_⟩
  · rw [acts.advance.make.allocator_eq]
    exact acts.advance.changed.settled unreached.settled
  · intro storage index covered tail
    have known : storage.index < memory.storages.size := by
      obtain ⟨rfl, -⟩ := covered
      exact unreached.settled.holds.storage_lt
    rcases acts.advance.tail_covers known (tail.mono (acts.count_mul_le grown)) with own | remains
    · exact unreached.untouched storage index covered own
    · exact unreached.settled.taken storage index covered remains

def elementsAt (source : Buffer) (extent : Extent) : Extent :=
  ⟨extent.storage, extent.start, source.count * source.layout.size⟩

theorem slot_of_unreached {extent : Extent} {offset : Nat} {type : FieldType}
    (contains : source.layout.Contains offset type) (block : source.block = some extent)
    (unreached : Unreached (source.elementsAt extent) buffer memory)
    (acts : Acts (buffer.count * buffer.layout.size) buffer memory later after more) {index : Nat}
    (inside : index < source.count) : source.slot after index = source.slot memory index := by
  apply slot_congr contains rfl
  intro place _ below
  rw [byteAt_of_block block, byteAt_of_block block]
  split
  · apply acts.advance.changed.byte_eq _ _ unreached.settled.holds.storage_lt
    have covered : (source.elementsAt extent).Covers extent.storage (extent.start + place) := by
      have behind : (index + 1) * source.layout.size ≤ source.count * source.layout.size :=
        Nat.mul_le_mul_right _ inside
      exact ⟨rfl, Nat.le_add_right _ _, by simp only [Extent.stop, elementsAt]; omega⟩
    rintro (tail | remains)
    · exact unreached.untouched _ _ covered tail
    · exact unreached.settled.taken _ _ covered remains
  · rfl

/-! ## Appending elements -/

/-- One step of an extension by another buffer: the element is read in the state that the pushes
before it left, and pushed then. -/
theorem extendFrom_succ (source : Buffer) (extent : Extent) (index count : Nat) :
    BufferM.extendFrom source extent index (count + 1) ⟨buffer, memory⟩ =
      match source.element extent index memory with
      | .error fault after => .error fault ⟨buffer, after⟩
      | .ok value between =>
          match BufferM.push value ⟨buffer, between⟩ with
          | .ok _ state => BufferM.extendFrom source extent (index + 1) count state
          | .error fault state => .error fault state := by
  simp only [BufferM.extendFrom, BufferM.observe, run_bind]
  cases source.element extent index memory with
  | error fault after => rfl
  | ok value between =>
      dsimp only
      cases BufferM.push value ⟨buffer, between⟩ <;> rfl

/-- Each element that is read is the one that the source showed at the beginning, as no push before
it reached it. -/
private theorem supplied_extendFrom {extent : Extent} {offset : Nat} {type : FieldType}
    (contains : source.layout.Contains offset type) (readable : source.layout.isReadable = true)
    (block : source.block = some extent)
    (room : source.count * source.layout.size ≤ extent.size) {index count : Nat}
    (within : index + count ≤ source.count) (ready : buffer.Ready memory)
    (shows : buffer.Shows memory slots) (holds : memory.Holds extent)
    (unreached : Unreached (source.elementsAt extent) buffer memory)
    (same : ∀ index, index < source.count → source.slot memory index = shown.slot index)
    (extended : slots.extend? ((List.range' index count).map shown.slot) = some more) :
    Supplied (BufferM.extendFrom source extent index count ⟨buffer, memory⟩) fun _ state =>
      Acts (buffer.count * buffer.layout.size) buffer memory state.buffer state.memory more := by
  induction count generalizing index buffer memory slots with
  | zero =>
      cases extended
      exact ⟨.refl _ buffer memory, Nat.le_refl _, shows⟩
  | succ count ih =>
      rw [List.range'_succ, List.map_cons] at extended
      obtain ⟨next, pushed, behind⟩ := Option.bind_eq_some_iff.mp extended
      have inside : index < source.count := by omega
      have space : (index + 1) * source.layout.size ≤ extent.size :=
        Nat.le_trans (Nat.mul_le_mul_right _ inside) room
      have first := supplied_push ready shows pushed
      rw [extendFrom_succ, element_eq contains readable block holds space, same index inside]
      dsimp only
      cases ran : BufferM.push (shown.slot index) ⟨buffer, memory⟩ with
      | error fault state =>
          rw [ran] at first
          exact first
      | ok done state =>
          rw [ran] at first
          obtain ⟨later, after⟩ := state
          have acts :
              Acts (buffer.count * buffer.layout.size) buffer memory later after next := first
          have grown : buffer.count ≤ next.count := by
            obtain ⟨kept, -, rfl⟩ := Slots.push?_eq_some pushed
            rw [shows.count_eq]
            exact Nat.le_succ _
          have sameThen : ∀ index, index < source.count →
              source.slot after index = shown.slot index := by
            intro other counted
            rw [slot_of_unreached contains block unreached acts counted, same other counted]
          refine (ih (by omega) (acts.advance.ready ready) acts.shows
            (acts.advance.changed.holds holds) (unreached.acts acts grown) sameThen
            behind).imp fun _ state last => ?_
          exact acts.trans last (acts.count_mul_le grown)

theorem supplied_extendBy (ready : buffer.Ready memory) (shows : buffer.Shows memory slots)
    (showsSource : source.Shows memory shown)
    (readable : shown.count = 0 ∨ shown.layout.isReadable = true)
    (unreached : ∀ extent, source.block = some extent →
      memory.Holds extent ∧ Unreached (source.elementsAt extent) buffer memory)
    (extended : slots.extend? shown.values = some more) :
    Supplied (BufferM.extendBy source ⟨buffer, memory⟩) fun _ state =>
      Acts (buffer.count * buffer.layout.size) buffer memory state.buffer state.memory more := by
  unfold BufferM.extendBy
  have none_added : shown.count = 0 → slots = more := by
    intro empty
    rw [Slots.values, empty] at extended
    exact Option.some.inj extended
  cases block : source.block with
  | none =>
      cases none_added (showsSource.count_of_no_block block)
      exact ⟨.refl _ buffer memory, Nat.le_refl _, shows⟩
  | some extent =>
      obtain ⟨offset, type, contains⟩ := showsSource.contains
      obtain ⟨holds, apart⟩ := unreached extent block
      rcases readable with empty | readable
      · rw [showsSource.count_eq, empty]
        cases none_added empty
        exact ⟨.refl _ buffer memory, Nat.le_refl _, shows⟩
      · have room := showsSource.room
        rw [blockSize_of_block block] at room
        rw [Slots.values, List.range_eq_range', ← showsSource.count_eq] at extended
        rw [← showsSource.layout_eq] at readable
        exact supplied_extendFrom contains readable block room (Nat.le_of_eq (Nat.zero_add _)) ready
          shows holds apart (fun index _ => showsSource.slot_eq index) extended

theorem extendBy_unreadable (showsSource : source.Shows memory shown) (some_ : shown.count ≠ 0)
    (unreadable : shown.layout.isReadable = false) :
    BufferM.extendBy source ⟨buffer, memory⟩ = .error .unreadable ⟨buffer, memory⟩ := by
  unfold BufferM.extendBy
  cases block : source.block with
  | none => exact absurd (showsSource.count_of_no_block block) some_
  | some extent =>
      obtain ⟨count, next⟩ := Nat.exists_eq_succ_of_ne_zero some_
      rw [← showsSource.layout_eq] at unreadable
      dsimp only
      rw [showsSource.count_eq, next, extendFrom_succ, element_unreadable unreadable]

/-! ## Appending bytes -/

theorem supplied_appendBytes {bytes : Bytes} (ready : buffer.Ready memory)
    (shows : buffer.Shows memory slots) (single : slots.layout = Layout.byteLayout)
    (extended : slots.extend? (Slots.ofBytes bytes) = some more) :
    Supplied (buffer.appendBytes bytes memory) fun later after =>
      Acts buffer.count buffer memory later after more := by
  have layout := shows.layout_eq.trans single
  have size : buffer.layout.size = 1 := by
    rw [layout]
    rfl
  rw [Slots.extend?_ofBytes single] at extended
  cases extended
  cases ran : buffer.appendBytes bytes memory with
  | error fault after =>
      by_cases nonempty : bytes = []
      · subst nonempty
        cases ran
      · rw [appendBytes_eq nonempty] at ran
        split at ran
        · cases ran
        · rename_i refused
          cases ran
          have supplied := supplied_reserve ready (by omega) (buffer.count + bytes.length : Nat)
          rw [refused] at supplied
          exact supplied
  | ok later after =>
      have spec := appended_of_appendBytes (by omega) ready.fits ready.settled ran
      have make := spec.advance.make
      have layoutThen := make.layout_eq.trans layout
      have room := shows.room
      rw [size, Nat.mul_one] at room
      refine ⟨spec.advance, spec.blockSize_le, make.role_eq.trans shows.role_eq,
        make.layout_eq.trans shows.layout_eq, ?_, ?_, ?_,
        ⟨shows.regular.contains, shows.regular.text⟩⟩
      · rw [spec.count_eq, shows.count_eq]
      · intro index
        have before := shows.slot_eq index
        rw [slot_byteLayout layout] at before
        rw [slot_byteLayout layoutThen, spec.byteAt_eq, shows.count_eq]
        dsimp only
        split
        · cases bytes[index - slots.count]? with
          | none => exact before
          | some byte => rfl
        · exact before
      · rw [make.layout_eq, size, Nat.mul_one]
        exact spec.room room

end LexKit.Buffer
