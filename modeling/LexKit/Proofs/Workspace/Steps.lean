import LexKit.Proofs.Workspace.Simulation

/-!
# Steps of buffers and slots

What each command does to a workspace that shows slots: it gives the answer that the slots give, and
the workspace shows the slots behind it.
-/

set_option autoImplicit false

namespace LexKit.Workspace

open Running

variable {memory after : Memory} {buffers : Array Buffer} {model : SlotMemory}

/-! ## Commands to allocators -/

theorem stepped_newHeap (shows : Shows ⟨memory, buffers⟩ model) :
    Stepped ⟨memory, buffers⟩ .newHeap .nothing model := by
  obtain ⟨sound, changed⟩ := sound_newHeap shows.sound
  have performed : (Workspace.mk memory buffers).perform .newHeap =
      (.nothing, ⟨(memory.addAllocator .heap).2, buffers⟩) := rfl
  refine ⟨by rw [performed], ?_, ?_⟩
  · rw [performed]
    exact shows.of_memory sound (shows.sound.byteAt_eq changed)
  · intro id _ _ _
    rw [performed]
    exact .refl _

theorem stepped_newArena {capacity : Int} (shows : Shows ⟨memory, buffers⟩ model)
    (lasting : ((Workspace.mk memory buffers).perform (.newArena capacity)).1.isShortage = false) :
    Stepped ⟨memory, buffers⟩ (.newArena capacity)
      (if capacity < 0 then .fault (.negativeCapacity (.int capacity)) else .nothing) model := by
  have performed : (Workspace.mk memory buffers).perform (.newArena capacity) =
      match Memory.newArena capacity memory with
      | .ok _ after => (.nothing, ⟨after, buffers⟩)
      | .error fault after => (.fault fault, ⟨after, buffers⟩) := by
    have carried : WorkspaceM.carryOut (.newArena capacity) ⟨memory, buffers⟩ =
        ((fun _ => Answer.nothing) <$> WorkspaceM.onMemory (Memory.newArena capacity))
          ⟨memory, buffers⟩ := rfl
    rw [perform_asked carried]
    simp only [WorkspaceM.onMemory]
    cases Memory.newArena capacity memory <;> rfl
  by_cases negative : capacity < 0
  · have refused : Memory.newArena capacity memory =
        .error (.negativeCapacity (.int capacity)) memory := by
      simp only [Memory.newArena, run_bind, if_pos negative, run_throw]
    rw [refused] at performed
    rw [if_pos negative]
    exact stepped_unchanged shows performed
  · rw [if_neg negative]
    rcases Memory.newArena_cases negative memory with ⟨fault, refused, short⟩ | supplied
    · rw [performed, refused] at lasting
      exact absurd (short.symm.trans lasting) Bool.true_eq_false.mp
    · rw [supplied] at performed
      refine ⟨by rw [performed], ?_, ?_⟩
      · rw [performed]
        exact shows.of_memory (sound_withArena shows.sound _) (byteAt_withArena shows.sound _)
      · intro id _ _ _
        rw [performed]
        exact .refl _

/-! ## Commands that append -/

/-- No push onto a buffer reaches the elements of a buffer. -/
private theorem Sound.unreached (sound : Sound ⟨memory, buffers⟩) (id source : BufferId)
    (room : ((Workspace.mk memory buffers).buffer source).count *
      ((Workspace.mk memory buffers).buffer source).layout.size ≤
        ((Workspace.mk memory buffers).buffer source).blockSize) (extent : Extent)
    (known : ((Workspace.mk memory buffers).buffer source).block = some extent) :
    memory.Holds extent ∧
      Buffer.Unreached (((Workspace.mk memory buffers).buffer source).elementsAt extent)
        ((Workspace.mk memory buffers).buffer id) memory := by
  have settled : memory.Settled ((Workspace.mk memory buffers).buffer id).allocator extent :=
    sound.settled source _ extent known
  have stop_le := settled.holds.stop_le
  rw [Buffer.blockSize_of_block known] at room
  simp only [Extent.stop] at stop_le
  have inner : ∀ storage index,
      (((Workspace.mk memory buffers).buffer source).elementsAt extent).Covers storage index →
        extent.Covers storage index := by
    rintro storage index ⟨rfl, above, below⟩
    exact ⟨rfl, above, Nat.lt_of_lt_of_le below (Nat.add_le_add_left room _)⟩
  refine ⟨settled.holds, ⟨⟨settled.holds.storage_lt, ?_⟩, ?_⟩, ?_⟩
  · exact Nat.le_trans (Nat.add_le_add_left room _) stop_le
  · intro storage index covered
    exact settled.taken storage index (inner storage index covered)
  · rintro storage index covered ⟨own, block, rfl, above, below⟩
    by_cases same : source = id
    · subst same
      rw [known] at block
      cases block
      exact Nat.not_le_of_lt covered.2.2 above
    · exact sound.disjoint source id same extent own known block _ _ (inner _ _ covered)
        ⟨rfl, Nat.le_of_add_right_le above, below⟩

/-- Every command that pushes a value in the end is one step of the slots, if memory is not short.
-/
theorem stepped_push {command : BufferCommand} {id : BufferId} {slots new : Slots} {value : Value}
    (shows : Shows ⟨memory, buffers⟩ model) (known : model.slots? id = some slots)
    (pushed : slots.push? value = some new)
    (carried : WorkspaceM.carryOut command ⟨memory, buffers⟩ =
      WorkspaceM.noted (WorkspaceM.onBuffer id (BufferM.push value)) ⟨memory, buffers⟩)
    (lasting : ((Workspace.mk memory buffers).perform command).1.isShortage = false) :
    Stepped ⟨memory, buffers⟩ command .nothing (model.replace id new) := by
  refine stepped_of_supplied shows known carried ?_ lasting
  refine (Buffer.supplied_push (shows.sound.ready id) (shows.buffer id slots known) pushed).imp ?_
  intro _ state acts
  exact acts.mono (Nat.zero_le _)

theorem stepped_extend {id : BufferId} {slots new : Slots} {values : List Value}
    (shows : Shows ⟨memory, buffers⟩ model) (known : model.slots? id = some slots)
    (extended : slots.extend? values = some new)
    (lasting : ((Workspace.mk memory buffers).perform (.extend id values)).1.isShortage = false) :
    Stepped ⟨memory, buffers⟩ (.extend id values) .nothing (model.replace id new) := by
  refine stepped_of_supplied shows known rfl ?_ lasting
  refine (Buffer.supplied_extend (shows.sound.ready id) (shows.buffer id slots known)
    extended).imp ?_
  intro _ state acts
  exact acts.mono (Nat.zero_le _)

theorem stepped_extendBy {id source : BufferId} {slots shown new : Slots}
    (shows : Shows ⟨memory, buffers⟩ model) (known : model.slots? id = some slots)
    (knownSource : model.slots? source = some shown)
    (readable : shown.count = 0 ∨ shown.layout.isReadable = true)
    (extended : slots.extend? shown.values = some new)
    (lasting : ((Workspace.mk memory buffers).perform (.extendBy id source)).1.isShortage = false) :
    Stepped ⟨memory, buffers⟩ (.extendBy id source) .nothing (model.replace id new) := by
  have showsSource := shows.buffer source shown knownSource
  refine stepped_of_supplied shows known
    (rfl : _ = WorkspaceM.noted (WorkspaceM.onBuffer id
      (BufferM.extendBy ((Workspace.mk memory buffers).buffer source))) ⟨memory, buffers⟩)
    ?_ lasting
  refine (Buffer.supplied_extendBy (shows.sound.ready id) (shows.buffer id slots known)
    showsSource readable (shows.sound.unreached id source showsSource.room) extended).imp ?_
  intro _ state acts
  exact acts.mono (Nat.zero_le _)

private theorem stepped_appendBytes {command : BufferCommand} {id : BufferId} {slots new : Slots}
    {bytes : Bytes} (shows : Shows ⟨memory, buffers⟩ model) (known : model.slots? id = some slots)
    (single : slots.layout = Layout.byteLayout)
    (extended : slots.extend? (Slots.ofBytes bytes) = some new)
    (carried : WorkspaceM.carryOut command ⟨memory, buffers⟩ =
      WorkspaceM.noted (WorkspaceM.onBuffer id (BufferM.appendBytes bytes)) ⟨memory, buffers⟩)
    (lasting : ((Workspace.mk memory buffers).perform command).1.isShortage = false) :
    Stepped ⟨memory, buffers⟩ command .nothing (model.replace id new) := by
  refine stepped_of_supplied shows known carried ?_ lasting
  refine (Buffer.supplied_appendBytes (shows.sound.ready id) (shows.buffer id slots known) single
    extended).replace.imp ?_
  intro _ state acts
  exact acts.mono (Nat.zero_le _)

theorem text?_eq_some {id : BufferId} {slots : Slots} (text : model.text? id = some slots) :
    model.slots? id = some slots ∧ slots.role = .text := by
  obtain ⟨known, role⟩ := Option.filter_eq_some_iff.mp text
  exact ⟨known, by simpa using role⟩

theorem stepped_append {id : BufferId} {piece : Piece} {slots new : Slots}
    {values : List Value} (shows : Shows ⟨memory, buffers⟩ model)
    (text : model.text? id = some slots) (listed : model.valuesOf? piece = some values)
    (extended : slots.extend? values = some new)
    (lasting : ((Workspace.mk memory buffers).perform (.append id piece)).1.isShortage = false) :
    Stepped ⟨memory, buffers⟩ (.append id piece) .nothing (model.replace id new) := by
  obtain ⟨known, role⟩ := text?_eq_some text
  have showsText := shows.buffer id slots known
  have single := showsText.regular.text role
  cases piece with
  | number value =>
      cases listed
      obtain ⟨next, pushed, same⟩ := Option.bind_eq_some_iff.mp extended
      cases same
      exact stepped_push shows known pushed rfl lasting
  | bytes bytes =>
      cases listed
      exact stepped_appendBytes shows known single extended rfl lasting
  | string text =>
      cases listed
      exact stepped_appendBytes shows known single extended rfl lasting
  | text source =>
      obtain ⟨shown, textSource, rfl⟩ := Option.map_eq_some_iff.mp listed
      obtain ⟨knownSource, roleSource⟩ := text?_eq_some textSource
      have showsSource := shows.buffer source shown knownSource
      have content := Buffer.content_eq_bytes (shows.sound.ready source) showsSource
        (showsSource.regular.text roleSource)
      rw [← content] at extended
      exact stepped_appendBytes shows known single extended rfl lasting

/-! ## Commands that give memory away -/

theorem stepped_release {id : BufferId} {slots : Slots}
    (shows : Shows ⟨memory, buffers⟩ model) (known : model.slots? id = some slots) :
    Stepped ⟨memory, buffers⟩ (.release id) .nothing
      (model.replace id (.fresh slots.role slots.layout)) := by
  have showsBuffer := shows.buffer id slots known
  obtain ⟨after, ran, changed⟩ :=
    Buffer.release_eq ((Workspace.mk memory buffers).buffer id) memory
  have shown := Buffer.shows_emptied after _ showsBuffer.fresh_regular
  rw [showsBuffer.role_eq, showsBuffer.layout_eq] at shown
  have performed : (Workspace.mk memory buffers).perform (.release id) =
      (.nothing, ⟨after, buffers.setIfInBounds id.index
        ((Workspace.mk memory buffers).buffer id).emptied⟩) := by
    have carried : WorkspaceM.carryOut (.release id) ⟨memory, buffers⟩ =
        ((fun _ => Answer.nothing) <$> WorkspaceM.onBuffer id BufferM.release)
          ⟨memory, buffers⟩ := rfl
    rw [perform_onBuffer carried]
    simp only [BufferM.release, BufferM.replace, ran]
  refine ⟨by rw [performed], ?_, ?_⟩
  · rw [performed]
    exact shows.replaced known (Buffer.advance_emptied changed) shown
  · intro other _ _ kept
    have different : other ≠ id := fun same => kept (by rw [same])
    rw [performed, buffer_setIfInBounds_other different buffers _ after memory]
    exact .refl _

theorem buffer_taken (memory after : Memory) {id : BufferId}
    (inside : id.index < buffers.size) (left moved : Buffer) (other : BufferId) :
    (Workspace.mk after ((buffers.setIfInBounds id.index left).push moved)).buffer other =
      if other = ⟨buffers.size⟩ then moved
      else if other = id then left
      else (Workspace.mk memory buffers).buffer other := by
  have size : (buffers.setIfInBounds id.index left).size = buffers.size :=
    Array.size_setIfInBounds
  by_cases new : other = ⟨buffers.size⟩
  · rw [if_pos new, new, ← size]
    exact buffer_push_self _ moved after
  · rw [if_neg new]
    rw [← size] at new
    rw [buffer_push_other new moved after memory]
    by_cases same : other = id
    · rw [if_pos same, same]
      exact buffer_setIfInBounds_self inside left memory
    · rw [if_neg same]
      exact buffer_setIfInBounds_other same buffers left memory memory

private theorem slots?_taken {id : BufferId} {slots : Slots} (known : model.slots? id = some slots)
    (left moved : Slots) (other : BufferId) :
    ((model.replace id left).add moved).2.slots? other =
      if other = ⟨model.buffers.size⟩ then some moved
      else if other = id then some left
      else model.slots? other := by
  have size : (model.replace id left).buffers.size = model.buffers.size :=
    Array.size_setIfInBounds
  by_cases new : other = ⟨model.buffers.size⟩
  · rw [if_pos new, new, ← size]
    exact slots?_add_self moved
  · rw [if_neg new]
    rw [← size] at new
    rw [slots?_add_other new]
    by_cases same : other = id
    · rw [if_pos same, same]
      exact slots?_replace_self known left
    · rw [if_neg same]
      exact slots?_replace_other same left

/-- The blocks after a take: the new buffer has that of the old one, which is left without. -/
theorem sound_taken {id : BufferId} (sound : Sound ⟨memory, buffers⟩)
    (inside : id.index < buffers.size)
    (changed : Memory.ChangesWithin (fun _ _ => False) memory after) :
    Sound ⟨after, (buffers.setIfInBounds id.index
        ((Workspace.mk memory buffers).buffer id).emptied).push
          ((Workspace.mk memory buffers).buffer id)⟩ := by
  have absent : (Workspace.mk memory buffers).buffer ⟨buffers.size⟩ = absentBuffer :=
    buffer_eq_absent (Nat.le_refl _)
  -- The permutation that carries the argument: each block keeps its bytes and changes its owner.
  refine sound.exchanged changed (Equiv.swap id ⟨buffers.size⟩) ?_
  intro other
  rw [buffer_taken memory after inside]
  by_cases new : other = ⟨buffers.size⟩
  · rw [if_pos new, new, Equiv.swap_apply_right]
  · rw [if_neg new]
    by_cases same : other = id
    · rw [if_pos same, same, Equiv.swap_apply_left, absent]
      rfl
    · rw [if_neg same, Equiv.swap_apply_of_ne_of_ne same new]

private theorem shows_taken {id : BufferId} {slots : Slots}
    (shows : Shows ⟨memory, buffers⟩ model) (known : model.slots? id = some slots)
    (changed : Memory.ChangesWithin (fun _ _ => False) memory after) :
    Shows ⟨after, (buffers.setIfInBounds id.index
        ((Workspace.mk memory buffers).buffer id).emptied).push
          ((Workspace.mk memory buffers).buffer id)⟩
      ((model.replace id (.fresh slots.role slots.layout)).add slots).2 := by
  have showsBuffer := shows.buffer id slots known
  have size_eq : buffers.size = model.buffers.size := shows.size_eq
  have sameBytes := shows.sound.byteAt_eq changed
  have same_held := sameBytes id
  have sound := sound_taken shows.sound (shows.lt known) changed
  generalize (Workspace.mk memory buffers).buffer id = buffer at *
  have taken := buffer_taken memory after (shows.lt known) buffer.emptied buffer
  refine ⟨sound, ?_, ?_⟩
  · rw [Array.size_push, Array.size_setIfInBounds, SlotMemory.add, Array.size_push,
      SlotMemory.replace, Array.size_setIfInBounds, size_eq]
  · intro other found named
    rw [slots?_taken known, ← size_eq] at named
    rw [taken]
    by_cases new : other = ⟨buffers.size⟩
    · rw [if_pos new] at named ⊢
      cases named
      exact showsBuffer.congr same_held
    · rw [if_neg new] at named ⊢
      by_cases same : other = id
      · rw [if_pos same] at named ⊢
        cases named
        rw [← showsBuffer.role_eq, ← showsBuffer.layout_eq]
        exact Buffer.shows_emptied after buffer showsBuffer.fresh_regular
      · rw [if_neg same] at named ⊢
        exact (shows.buffer other found named).congr (sameBytes other)

theorem stepped_take {id : BufferId} {slots : Slots}
    (shows : Shows ⟨memory, buffers⟩ model) (known : model.slots? id = some slots)
    (lasting : ((Workspace.mk memory buffers).perform (.take id)).1.isShortage = false) :
    Stepped ⟨memory, buffers⟩ (.take id)
      ((model.replace id (.fresh slots.role slots.layout)).add slots).1
      ((model.replace id (.fresh slots.role slots.layout)).add slots).2 := by
  have supplied := Buffer.supplied_take (shows.sound.ready id) (shows.buffer id slots known)
  have carried : WorkspaceM.carryOut (.take id) ⟨memory, buffers⟩ =
      (Answer.buffer <$> WorkspaceM.take id) ⟨memory, buffers⟩ := rfl
  have performed := perform_asked carried
  unfold WorkspaceM.take at performed
  rw [run_bind] at performed
  simp only [WorkspaceM.onBuffer, BufferM.take, BufferM.exchange] at performed
  cases ran : Buffer.take ((Workspace.mk memory buffers).buffer id) memory with
  | error fault final =>
      rw [ran] at supplied
      have short : fault.IsShortage = true := supplied
      unfold Workspace.buffer at ran
      rw [ran] at performed
      rw [performed] at lasting
      exact absurd lasting (by simpa [Answer.isShortage] using short)
  | ok taken final =>
      rw [ran] at supplied
      obtain ⟨rfl, changed⟩ := supplied
      unfold Workspace.buffer at ran
      rw [ran] at performed
      have shown := shows_taken shows known changed
      refine ⟨?_, ?_, ?_⟩
      · rw [performed]
        change Answer.buffer ⟨(buffers.setIfInBounds _ _).size⟩ = _
        rw [Array.size_setIfInBounds, SlotMemory.add, SlotMemory.replace,
          Array.size_setIfInBounds]
        exact congrArg (fun size => Answer.buffer ⟨size⟩) shows.size_eq
      · rw [performed]
        exact shown
      · intro other within kept _
        have different : other ≠ id := fun same => kept (by rw [same])
        have old : other ≠ ⟨buffers.size⟩ := by
          rintro rfl
          exact Nat.lt_irrefl _ within
        rw [performed]
        change Roomy _ (Workspace.buffer ⟨final, (buffers.setIfInBounds id.index
          ((Workspace.mk memory buffers).buffer id).emptied).push
            ((Workspace.mk memory buffers).buffer id)⟩ other)
        rw [buffer_taken memory final (shows.lt known), if_neg old, if_neg different]
        exact .refl _

/-! ## Commands that look at a buffer -/

theorem observe_answer {α : Type} {buffer : Buffer} {action : Buffer → MemoryM α}
    {found : Except Fault α} (asked : action buffer memory = answer found memory) :
    BufferM.observe action ⟨buffer, memory⟩ = answer found ⟨buffer, memory⟩ := by
  unfold BufferM.observe
  dsimp only
  rw [asked]
  cases found with
  | ok result => rfl
  | error fault => rfl

theorem list_eq_ok {slots : Slots} {values : List Value} (listed : slots.list = .ok values) :
    values = slots.values ∧ (slots.count = 0 ∨ slots.layout.isReadable = true) := by
  unfold Slots.list at listed
  split at listed
  · rename_i readable
    cases listed
    exact ⟨rfl, readable⟩
  · cases listed

theorem list_eq_error {slots : Slots} {fault : Fault} (listed : slots.list = .error fault) :
    fault = .unreadable ∧ slots.count ≠ 0 ∧ slots.layout.isReadable = false := by
  unfold Slots.list at listed
  split at listed
  · cases listed
  · rename_i unreadable
    cases listed
    obtain ⟨some_, none_read⟩ := not_or.mp unreadable
    exact ⟨rfl, some_, by simpa using none_read⟩

private theorem replace_same {id : BufferId} {slots : Slots}
    (known : model.slots? id = some slots) : model.replace id slots = model := by
  obtain ⟨inside, same⟩ := Array.getElem?_eq_some_iff.mp known
  unfold SlotMemory.replace
  rw [← same]
  simp [Array.setIfInBounds, inside]

theorem stepped_unreadable (id : BufferId) {source : BufferId} {shown : Slots}
    (shows : Shows ⟨memory, buffers⟩ model)
    (knownSource : model.slots? source = some shown) (counted : shown.count ≠ 0)
    (unreadable : shown.layout.isReadable = false) :
    Stepped ⟨memory, buffers⟩ (.extendBy id source) (.fault .unreadable) model := by
  have carried : WorkspaceM.carryOut (.extendBy id source) ⟨memory, buffers⟩ =
      ((fun _ => Answer.nothing) <$> WorkspaceM.onBuffer id
        (BufferM.extendBy ((Workspace.mk memory buffers).buffer source))) ⟨memory, buffers⟩ := rfl
  have ran : BufferM.extendBy ((Workspace.mk memory buffers).buffer source)
      ⟨(Workspace.mk memory buffers).buffer id, memory⟩ =
        answer (.error .unreadable) ⟨(Workspace.mk memory buffers).buffer id, memory⟩ :=
    Buffer.extendBy_unreadable (shows.buffer source shown knownSource) counted unreadable
  exact stepped_of_answer shows carried ran

/-! ## Commands that change elements and counts -/

theorem stepped_set {id : BufferId} {index : Int} {place : Nat} {value kept : Value}
    {slots : Slots} (shows : Shows ⟨memory, buffers⟩ model) (known : model.slots? id = some slots)
    (named : slots.place index = .ok place) (taken : slots.layout.kept? value = some kept) :
    Stepped ⟨memory, buffers⟩ (.set id index value) .nothing
      (model.replace id (slots.write place kept)) := by
  obtain ⟨after, ran, acts⟩ := Buffer.acts_set (shows.sound.ready id) (shows.buffer id slots known)
    named taken
  have carried : WorkspaceM.carryOut (.set id index value) ⟨memory, buffers⟩ =
      ((fun _ => Answer.nothing) <$> WorkspaceM.onBuffer id (BufferM.set (.int index) value))
        ⟨memory, buffers⟩ := rfl
  have done : BufferM.set (.int index) value ⟨(Workspace.mk memory buffers).buffer id, memory⟩ =
      .ok () ⟨(Workspace.mk memory buffers).buffer id, after⟩ := by
    simp only [BufferM.set, BufferM.observe, ran]
  exact stepped_of_acts shows known carried done acts

theorem stepped_set_outside {id : BufferId} {index : Int} {value : Value} {fault : Fault}
    {slots : Slots} (shows : Shows ⟨memory, buffers⟩ model) (known : model.slots? id = some slots)
    (outside : slots.place index = .error fault) :
    Stepped ⟨memory, buffers⟩ (.set id index value) (.fault fault) model := by
  have carried : WorkspaceM.carryOut (.set id index value) ⟨memory, buffers⟩ =
      ((fun _ => Answer.nothing) <$> WorkspaceM.onBuffer id (BufferM.set (.int index) value))
        ⟨memory, buffers⟩ := rfl
  have ran : BufferM.set (.int index) value ⟨(Workspace.mk memory buffers).buffer id, memory⟩ =
      answer (.error fault) ⟨(Workspace.mk memory buffers).buffer id, memory⟩ :=
    observe_answer (Buffer.set_outside (shows.buffer id slots known) outside value)
  exact stepped_of_answer shows carried ran

theorem stepped_pop {id : BufferId} {value : Value} {slots : Slots}
    (shows : Shows ⟨memory, buffers⟩ model) (known : model.slots? id = some slots)
    (last : slots.last = .ok value) :
    Stepped ⟨memory, buffers⟩ (.pop id) (.value value)
      (model.replace id { slots with count := slots.count - 1 }) := by
  have showsBuffer := shows.buffer id slots known
  have carried : WorkspaceM.carryOut (.pop id) ⟨memory, buffers⟩ =
      (Answer.value <$> WorkspaceM.onBuffer id BufferM.pop) ⟨memory, buffers⟩ := rfl
  have ran := Buffer.pop_eq (shows.sound.ready id) showsBuffer
  rw [last] at ran
  exact stepped_of_acts shows known carried ran (Buffer.acts_pop showsBuffer)

theorem stepped_pop_fault {id : BufferId} {fault : Fault} {slots : Slots}
    (shows : Shows ⟨memory, buffers⟩ model) (known : model.slots? id = some slots)
    (last : slots.last = .error fault) :
    Stepped ⟨memory, buffers⟩ (.pop id) (.fault fault) model := by
  have carried : WorkspaceM.carryOut (.pop id) ⟨memory, buffers⟩ =
      (Answer.value <$> WorkspaceM.onBuffer id BufferM.pop) ⟨memory, buffers⟩ := rfl
  have ran := Buffer.pop_eq (shows.sound.ready id) (shows.buffer id slots known)
  rw [last] at ran
  have asked : BufferM.pop ⟨(Workspace.mk memory buffers).buffer id, memory⟩ =
      answer (.error fault) ⟨(Workspace.mk memory buffers).buffer id, memory⟩ := ran
  exact stepped_of_answer shows carried asked

theorem stepped_clear {id : BufferId} {slots : Slots}
    (shows : Shows ⟨memory, buffers⟩ model) (known : model.slots? id = some slots) :
    Stepped ⟨memory, buffers⟩ (.clear id) .nothing
      (model.replace id { slots with count := 0 }) := by
  have carried : WorkspaceM.carryOut (.clear id) ⟨memory, buffers⟩ =
      ((fun _ => Answer.nothing) <$> WorkspaceM.onBuffer id BufferM.clear) ⟨memory, buffers⟩ := rfl
  have ran : BufferM.clear ⟨(Workspace.mk memory buffers).buffer id, memory⟩ =
      .ok () ⟨((Workspace.mk memory buffers).buffer id).clear, memory⟩ := rfl
  exact stepped_of_acts shows known carried ran (Buffer.acts_clear (shows.buffer id slots known))

theorem stepped_reserve {id : BufferId} {capacity : Int} {slots : Slots}
    (shows : Shows ⟨memory, buffers⟩ model) (known : model.slots? id = some slots)
    (lasting :
      ((Workspace.mk memory buffers).perform (.reserve id capacity)).1.isShortage = false) :
    Stepped ⟨memory, buffers⟩ (.reserve id capacity) .nothing model := by
  have showsBuffer := shows.buffer id slots known
  obtain ⟨offset, type, contains⟩ := showsBuffer.contains
  have step : Stepped ⟨memory, buffers⟩ (.reserve id capacity) .nothing
      (model.replace id slots) := by
    refine stepped_of_supplied shows known rfl (Supplied.imp (Supplied.replace
      (Buffer.supplied_reserve (shows.sound.ready id) contains.positive capacity)) ?_) lasting
    intro _ state reserved
    exact reserved.acts (shows.sound.ready id) showsBuffer 0
  rwa [replace_same known] at step

theorem stepped_resize {id : BufferId} {count : Int} {slots : Slots}
    (shows : Shows ⟨memory, buffers⟩ model) (known : model.slots? id = some slots)
    (natural : ¬count < 0)
    (lasting : ((Workspace.mk memory buffers).perform (.resize id count)).1.isShortage = false) :
    Stepped ⟨memory, buffers⟩ (.resize id count) .nothing
      (model.replace id { slots with count := count.toNat }) := by
  refine stepped_of_supplied shows known rfl (Supplied.imp (Supplied.replace
    (Buffer.supplied_resize (shows.sound.ready id) (shows.buffer id slots known) natural)) ?_)
    lasting
  intro _ state acts
  exact acts

theorem stepped_resize_negative (id : BufferId) {count : Int}
    (shows : Shows ⟨memory, buffers⟩ model) (negative : count < 0) :
    Stepped ⟨memory, buffers⟩ (.resize id count) (.fault (.negativeLength (.int count))) model := by
  have carried : WorkspaceM.carryOut (.resize id count) ⟨memory, buffers⟩ =
      ((fun _ => Answer.nothing) <$> WorkspaceM.onBuffer id (BufferM.resize count))
        ⟨memory, buffers⟩ := rfl
  have ran : BufferM.resize count ⟨(Workspace.mk memory buffers).buffer id, memory⟩ =
      answer (.error (.negativeLength (.int count)))
        ⟨(Workspace.mk memory buffers).buffer id, memory⟩ := by
    simp only [BufferM.resize, BufferM.replace, Buffer.resize_negative negative]
    rfl
  exact stepped_of_answer shows carried ran

end LexKit.Workspace
