import LexKit.Proofs.Buffer.Extending

/-!
# Access

Operations that read, replace, remove or expose elements, on a buffer and on the slots that it
shows. What is read is what the slots show, and the faults are those of the slots.
-/

set_option autoImplicit false

namespace LexKit

namespace Slots

def get (slots : Slots) (index : Int) : Except Fault Value :=
  (slots.place index).bind slots.read

def last (slots : Slots) : Except Fault Value :=
  if slots.count = 0 then .error .popFromEmpty else slots.read (slots.count - 1)

end Slots

namespace Buffer

open Running

variable {buffer later : Buffer} {memory after : Memory} {slots : Slots}

theorem checkIndex_eq (shows : buffer.Shows memory slots) (index : Int) :
    buffer.checkIndex (.int index) = slots.place index := by
  simp only [checkIndex, Quantity.whole?, Slots.place, shows.count_eq]

private theorem place_cases {index : Int} {place : Nat} (named : slots.place index = .ok place) :
    place < slots.count := by
  unfold Slots.place at named
  split at named
  · cases named
    omega
  · cases named

/-! ## Reading -/

private theorem read_eq (ready : buffer.Ready memory) (shows : buffer.Shows memory slots)
    {place : Nat} (inside : place < slots.count) (index : Int)
    (named : buffer.checkIndex (.int index) = .ok place) :
    buffer.get (.int index) memory = answer (slots.read place) memory := by
  obtain ⟨offset, type, contains⟩ := shows.contains
  rw [← shows.count_eq] at inside
  have first := Layout.firstItem?_of_singleItem? contains.single
  unfold Slots.read
  rw [← shows.layout_eq, ← shows.slot_eq]
  cases readable : buffer.layout.isReadable with
  | false =>
      simp only [get, named, first, readable, Bool.not_false, ↓reduceIte, Bool.false_eq_true]
      rfl
  | true =>
      cases block : buffer.block with
      | none =>
          rw [shows.count_eq, shows.count_of_no_block block] at inside
          exact absurd inside (Nat.not_lt_zero _)
      | some extent =>
          rw [← load_eq_slot contains block (ready.holds block) (shows.element_room block inside)]
          simp only [get, named, first, readable, block, Bool.not_true, Bool.false_eq_true,
            ↓reduceIte]
          rfl

theorem get_eq (ready : buffer.Ready memory) (shows : buffer.Shows memory slots) (index : Int) :
    buffer.get (.int index) memory = answer (slots.get index) memory := by
  have checked := checkIndex_eq shows index
  unfold Slots.get
  cases named : slots.place index with
  | error fault =>
      rw [named] at checked
      simp only [get, checked]
      rfl
  | ok place =>
      rw [named] at checked
      exact read_eq ready shows (place_cases named) index checked

theorem pop_eq (ready : buffer.Ready memory) (shows : buffer.Shows memory slots) :
    BufferM.pop ⟨buffer, memory⟩ =
      match slots.last with
      | .ok value => .ok value ⟨{ buffer with count := buffer.count - 1 }, memory⟩
      | .error fault => .error fault ⟨buffer, memory⟩ := by
  have count := shows.count_eq
  unfold Slots.last BufferM.pop BufferM.exchange
  by_cases empty : slots.count = 0
  · simp only [pop, empty, count, ↓reduceIte, run_bind, run_throw]
  · have checked : buffer.checkIndex (.int (buffer.count - 1 : Nat)) = .ok (slots.count - 1) := by
      rw [checkIndex_eq shows, count, Slots.place, if_pos (by omega), Int.toNat_natCast]
    have read := read_eq ready shows (by omega) _ checked
    rw [if_neg empty]
    have none_empty : ¬buffer.count = 0 := by rwa [count]
    simp only [pop, none_empty, ↓reduceIte, run_bind, run_pure, read]
    cases slots.read (slots.count - 1) with
    | ok value => rfl
    | error fault => rfl

theorem mapM_eq {State α β : Type} {action : α → EStateM Fault State β} {value : α → β}
    {state : State} {members : List α}
    (same : ∀ member ∈ members, action member state = .ok (value member) state) :
    members.mapM action state = .ok (members.map value) state := by
  induction members with
  | nil => rfl
  | cons member rest ih =>
      rw [List.mapM_cons, run_bind, same member List.mem_cons_self]
      dsimp only
      rw [run_bind, ih fun other later => same other (List.mem_cons_of_mem _ later)]
      rfl

theorem toList_eq (ready : buffer.Ready memory) (shows : buffer.Shows memory slots) :
    buffer.toList memory = answer slots.list memory := by
  obtain ⟨offset, type, contains⟩ := shows.contains
  unfold toList Slots.list Slots.values
  cases block : buffer.block with
  | none =>
      rw [shows.count_of_no_block block, if_pos (.inl rfl)]
      rfl
  | some extent =>
      rw [← shows.layout_eq, ← shows.count_eq]
      dsimp only
      cases readable : buffer.layout.isReadable with
      | true =>
          have read : ∀ index ∈ List.range buffer.count,
              buffer.element extent index memory = .ok (slots.slot index) memory := by
            intro index member
            rw [← shows.slot_eq]
            exact element_eq contains readable block (ready.holds block)
              (shows.element_room block (List.mem_range.mp member))
          rw [mapM_eq read, if_pos (.inr rfl)]
          rfl
      | false =>
          by_cases empty : buffer.count = 0
          · rw [if_pos (.inl empty), empty]
            rfl
          · obtain ⟨count, next⟩ := Nat.exists_eq_succ_of_ne_zero empty
            rw [if_neg (by simpa using empty), next, List.range_succ_eq_map, List.mapM_cons,
              run_bind, element_unreadable readable]
            rfl

/-- The content of a text is what its slots say. A text has one slot of one byte for each element,
so nothing lies between the bytes. -/
theorem content_eq_bytes (ready : buffer.Ready memory) (shows : buffer.Shows memory slots)
    (single : slots.layout = Layout.byteLayout) : buffer.content memory = slots.bytes := by
  have layout := shows.layout_eq.trans single
  have room := shows.room
  rw [layout] at room
  have size : Layout.byteLayout.size = 1 := rfl
  rw [size, Nat.mul_one] at room
  apply content_eq fun _ => ready.holds
  · rw [Slots.bytes, Slots.values, List.length_map, List.length_map, List.length_range,
      shows.count_eq]
  · exact room
  · intro place inside
    simp only [Slots.bytes, Slots.values, List.getElem_map, List.getElem_range]
    rw [← shows.slot_eq, byteOf_slot layout]

/-! ## Replacing -/

theorem set_outside (shows : buffer.Shows memory slots) {index : Int} {fault : Fault}
    (outside : slots.place index = .error fault) (value : Value) :
    buffer.set (.int index) value memory = .error fault memory := by
  have checked := checkIndex_eq shows index
  rw [outside] at checked
  have other : fault ≠ .wrongType := by
    rintro rfl
    unfold Slots.place at outside
    split at outside <;> cases outside
  cases fault <;> first
    | exact absurd rfl other
    | simp only [set, openAt, checked, run_bind, run_throw]

theorem acts_set (ready : buffer.Ready memory) (shows : buffer.Shows memory slots) {index : Int}
    {place : Nat} {value kept : Value} (named : slots.place index = .ok place)
    (taken : slots.layout.kept? value = some kept) :
    ∃ after, buffer.set (.int index) value memory = .ok () after ∧
      Acts 0 buffer memory buffer after (slots.write place kept) := by
  obtain ⟨offset, type, contains⟩ := shows.contains
  have checked := checkIndex_eq shows index
  rw [named] at checked
  have inside := place_cases named
  rw [← shows.count_eq] at inside
  rw [← shows.layout_eq] at taken
  have space : (place + 1) * buffer.layout.size ≤ buffer.blockSize :=
    Nat.le_trans (Nat.mul_le_mul_right _ inside) shows.room
  obtain ⟨bytes, spot, opened, opening, filling, length, stands⟩ :=
    store_of_kept? memory contains space taken
  have stored := stored_of_storeAt contains (fun _ => ready.holds) space length stands
  refine ⟨buffer.storeAt place offset bytes memory, ?_, ?_⟩
  · simp only [set, openAt, checked, run_bind, opening, filling]
  · exact Acts.mono ⟨stored.advance, Nat.le_refl _, stored.shows shows⟩ (Nat.zero_le _)

/-! ## Exposing -/

theorem acts_recount (shows : buffer.Shows memory slots) {count : Nat}
    (room : count * buffer.layout.size ≤ buffer.blockSize) :
    Acts 0 buffer memory { buffer with count } memory { slots with count } :=
  Acts.recount ⟨.refl _ buffer memory, Nat.le_refl _, shows⟩ room

theorem acts_pop (shows : buffer.Shows memory slots) :
    Acts 0 buffer memory { buffer with count := buffer.count - 1 } memory
      { slots with count := slots.count - 1 } := by
  have room : (buffer.count - 1) * buffer.layout.size ≤ buffer.blockSize :=
    Nat.le_trans (Nat.mul_le_mul_right _ (Nat.sub_le _ _)) shows.room
  have acts := acts_recount shows room
  rwa [shows.count_eq] at acts ⊢

theorem acts_clear (shows : buffer.Shows memory slots) :
    Acts 0 buffer memory buffer.clear memory { slots with count := 0 } :=
  acts_recount shows (by rw [Nat.zero_mul]; exact Nat.zero_le _)

theorem resize_negative {count : Int} (negative : count < 0) :
    buffer.resize count memory = .error (.negativeLength (.int count)) memory := by
  simp only [resize, negative, ↓reduceIte, run_bind, run_throw]

/-- Resizing looks at the block only to see whether it is too small. A larger count makes room for
exactly that many elements, and a smaller one keeps the block. -/
theorem resize_eq {count : Int} (sized : 0 < buffer.layout.size) (natural : ¬count < 0)
    (memory : Memory) :
    buffer.resize count memory =
      if count > (buffer.blockSize / buffer.layout.size : Nat) then
        match buffer.reserve count memory with
        | .ok roomy after => .ok { roomy with count := count.toNat } after
        | .error fault after => .error fault after
      else .ok { buffer with count := count.toNat } memory := by
  simp only [resize, natural, ↓reduceIte, capacity_eq sized, run_bind, run_ofExcept_ok]
  split
  · rw [run_bind]
    cases buffer.reserve count memory <;> rfl
  · rfl

theorem supplied_resize (ready : buffer.Ready memory) (shows : buffer.Shows memory slots)
    {count : Int} (natural : ¬count < 0) :
    Supplied (buffer.resize count memory) fun later after =>
      Acts 0 buffer memory later after { slots with count := count.toNat } := by
  obtain ⟨offset, type, contains⟩ := shows.contains
  have positive := contains.positive
  rw [resize_eq positive natural]
  split
  · have reserved := supplied_reserve ready positive count
    cases grown : buffer.reserve count memory with
    | error fault after =>
        rw [grown] at reserved
        exact reserved
    | ok roomy after =>
        rw [grown] at reserved
        have spec : Reserved buffer memory count roomy after := reserved
        refine (spec.acts ready shows 0).recount ?_
        obtain ⟨whole, rfl⟩ := Int.eq_ofNat_of_zero_le (Int.not_lt.mp natural)
        rw [spec.advance.make.layout_eq, Int.toNat_natCast]
        exact_mod_cast spec.room
  · refine acts_recount shows ((Nat.le_div_iff_mul_le positive).mp ?_)
    omega

end Buffer

end LexKit
