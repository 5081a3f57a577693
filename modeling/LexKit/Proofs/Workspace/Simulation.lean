import LexKit.Proofs.Workspace.Commands
import LexKit.Proofs.Workspace.Sharing

/-!
# Commands on buffers and on slots

The relation between a workspace and the slots that its buffers show, and what each kind of command
does to both: an operation on one buffer replaces its slots, making a buffer adds slots, and asking
changes neither.
-/

set_option autoImplicit false

namespace LexKit.Workspace

open Running

variable {memory after : Memory} {buffers : Array Buffer} {model : SlotMemory}

/-- Each buffer shows the slots of the same number, and the blocks lie apart. -/
structure Shows (workspace : Workspace) (model : SlotMemory) : Prop where
  sound : workspace.Sound
  size_eq : workspace.buffers.size = model.buffers.size
  buffer : ∀ id slots, model.slots? id = some slots →
    (workspace.buffer id).Shows workspace.memory slots

/-- The buffer has the layout and at least the room that it had. -/
structure Roomy (buffer later : Buffer) : Prop where
  layout_eq : later.layout = buffer.layout
  blockSize_le : buffer.blockSize ≤ later.blockSize

theorem Roomy.refl (buffer : Buffer) : Roomy buffer buffer :=
  ⟨rfl, Nat.le_refl _⟩

/-! ## Slots that are replaced or added -/

theorem slots?_lt {id : BufferId} {slots : Slots} (known : model.slots? id = some slots) :
    id.index < model.buffers.size := by
  obtain ⟨inside, -⟩ := Array.getElem?_eq_some_iff.mp known
  exact inside

theorem slots?_replace_self {id : BufferId} {old : Slots} (known : model.slots? id = some old)
    (new : Slots) : (model.replace id new).slots? id = some new := by
  rw [SlotMemory.slots?, SlotMemory.replace,
    Array.getElem?_setIfInBounds_self_of_lt (slots?_lt known)]

theorem slots?_replace_other {id other : BufferId} (different : other ≠ id) (new : Slots) :
    (model.replace id new).slots? other = model.slots? other := by
  have index : id.index ≠ other.index := by
    intro equal
    exact different (by cases id; cases other; exact congrArg BufferId.mk equal.symm)
  rw [SlotMemory.slots?, SlotMemory.replace, Array.getElem?_setIfInBounds_ne index]
  rfl

theorem slots?_add_self (slots : Slots) :
    (model.add slots).2.slots? ⟨model.buffers.size⟩ = some slots := by
  rw [SlotMemory.slots?, SlotMemory.add, Array.getElem?_push_size]

theorem slots?_add_other {other : BufferId} (different : other ≠ ⟨model.buffers.size⟩)
    (slots : Slots) : (model.add slots).2.slots? other = model.slots? other := by
  have index : other.index ≠ model.buffers.size := by
    intro equal
    exact different (by cases other; exact congrArg BufferId.mk equal)
  rw [SlotMemory.slots?, SlotMemory.add, Array.getElem?_push, if_neg index]
  rfl

theorem Shows.lt {workspace : Workspace} (shows : workspace.Shows model) {id : BufferId}
    {slots : Slots} (known : model.slots? id = some slots) :
    id.index < workspace.buffers.size := by
  rw [shows.size_eq]
  exact slots?_lt known

theorem Shows.of_memory {workspace : Workspace} (shows : workspace.Shows model)
    (sound : Sound ⟨after, workspace.buffers⟩)
    (same : ∀ id place, (workspace.buffer id).byteAt after place =
      (workspace.buffer id).byteAt workspace.memory place) :
    Shows ⟨after, workspace.buffers⟩ model :=
  ⟨sound, shows.size_eq, fun id slots known => (shows.buffer id slots known).congr (same id)⟩

/-- An action on one buffer replaces its slots. For the others it suffices that the action touched
only the tail of this one's block, or new memory. -/
theorem Shows.replaced (shows : Shows ⟨memory, buffers⟩ model) {id : BufferId} {old new : Slots}
    {later : Buffer} (known : model.slots? id = some old)
    (advance : Buffer.Advance (((Workspace.mk memory buffers).buffer id).Tail 0)
      ((Workspace.mk memory buffers).buffer id) memory later after)
    (shown : later.Shows after new) :
    Shows ⟨after, buffers.setIfInBounds id.index later⟩ (model.replace id new) := by
  have inside := shows.lt known
  have self := buffer_setIfInBounds_self inside later after
  have replaced : Replaced id ((Workspace.mk memory buffers).buffer id) ⟨memory, buffers⟩
      ⟨after, buffers.setIfInBounds id.index later⟩ := by
    refine ⟨fun other different => buffer_setIfInBounds_other different buffers later after memory,
      rfl, ?_⟩
    rw [self]
    exact advance
  refine ⟨replaced.sound shows.sound, ?_, ?_⟩
  · rw [Array.size_setIfInBounds, SlotMemory.replace, Array.size_setIfInBounds]
    exact shows.size_eq
  · intro other slots named
    by_cases same : other = id
    · subst same
      rw [slots?_replace_self known] at named
      cases named
      rw [self]
      exact shown
    · rw [slots?_replace_other same] at named
      rw [replaced.others other same]
      exact (shows.buffer other slots named).congr (replaced.byteAt_eq shows.sound same)

/-- A new buffer joins the slots of the others. It may have taken memory, but none of theirs. -/
theorem Shows.added (shows : Shows ⟨memory, buffers⟩ model) {blank made : Buffer} {slots : Slots}
    (block : blank.block = none)
    (advance : Buffer.Advance (blank.Tail 0) blank memory made after)
    (shown : made.Shows after slots) :
    Shows ⟨after, buffers.push made⟩ (model.add slots).2 := by
  have self := buffer_push_self buffers made after
  have replaced : Replaced ⟨buffers.size⟩ blank ⟨memory, buffers⟩ ⟨after, buffers.push made⟩ := by
    refine ⟨fun other different => buffer_push_other different made after memory, ?_, ?_⟩
    · have absent : (Workspace.mk memory buffers).buffer ⟨buffers.size⟩ = absentBuffer :=
        buffer_eq_absent (Nat.le_refl _)
      rw [block, absent]
      rfl
    · rw [self]
      exact advance
  refine ⟨replaced.sound shows.sound, ?_, ?_⟩
  · rw [Array.size_push, SlotMemory.add, Array.size_push]
    exact congrArg Nat.succ shows.size_eq
  · intro other found named
    have size_eq : buffers.size = model.buffers.size := shows.size_eq
    by_cases same : other = ⟨buffers.size⟩
    · subst same
      rw [size_eq, slots?_add_self] at named
      cases named
      rw [self]
      exact shown
    · have old := same
      rw [size_eq] at old
      rw [slots?_add_other old] at named
      rw [replaced.others other same]
      exact (shows.buffer other found named).congr (replaced.byteAt_eq shows.sound same)

/-! ## Steps -/

/-- The workspace gave the answer, shows the slots behind it, and no buffer lost room, except one
that was moved out or released. -/
structure Stepped (workspace : Workspace) (command : BufferCommand) (answer : Answer)
    (later : SlotMemory) : Prop where
  answer_eq : (workspace.perform command).1 = answer
  shows : (workspace.perform command).2.Shows later
  roomy : ∀ id, id.index < workspace.buffers.size → command ≠ .take id → command ≠ .release id →
    Roomy (workspace.buffer id) ((workspace.perform command).2.buffer id)

theorem stepped_unchanged {workspace : Workspace} {command : BufferCommand} {answer : Answer}
    (shows : workspace.Shows model) (performed : workspace.perform command = (answer, workspace)) :
    Stepped workspace command answer model := by
  refine ⟨by rw [performed], by rwa [performed], ?_⟩
  intro id _ _ _
  rw [performed]
  exact .refl _

theorem perform_asked {α : Type} {command : BufferCommand} {action : WorkspaceM α}
    {answer : α → Answer} {workspace : Workspace}
    (carried : WorkspaceM.carryOut command workspace = (answer <$> action) workspace) :
    workspace.perform command =
      match action workspace with
      | .ok result after => (answer result, after)
      | .error fault after => (.fault fault, after) := by
  unfold perform
  rw [carried, map_eq_pure_bind, run_bind]
  cases action workspace with
  | ok result after => rfl
  | error fault after => rfl

theorem perform_onBuffer {α : Type} {command : BufferCommand} {id : BufferId}
    {operation : BufferM α} {answer : α → Answer}
    (carried : WorkspaceM.carryOut command ⟨memory, buffers⟩ =
      (answer <$> WorkspaceM.onBuffer id operation) ⟨memory, buffers⟩) :
    (Workspace.mk memory buffers).perform command =
      match operation ⟨(Workspace.mk memory buffers).buffer id, memory⟩ with
      | .ok result state =>
          (answer result, ⟨state.memory, buffers.setIfInBounds id.index state.buffer⟩)
      | .error fault state =>
          (.fault fault, ⟨state.memory, buffers.setIfInBounds id.index state.buffer⟩) := by
  rw [perform_asked carried]
  unfold WorkspaceM.onBuffer Workspace.buffer
  dsimp only
  cases operation ⟨buffers.getD id.index absentBuffer, memory⟩ with
  | ok result state => rfl
  | error fault state => rfl

theorem perform_addBuffer {command : BufferCommand} {make : MemoryM Buffer}
    (carried : WorkspaceM.carryOut command ⟨memory, buffers⟩ =
      (Answer.buffer <$> WorkspaceM.addBuffer make) ⟨memory, buffers⟩) :
    (Workspace.mk memory buffers).perform command =
      match make memory with
      | .ok made after => (.buffer ⟨buffers.size⟩, ⟨after, buffers.push made⟩)
      | .error fault after => (.fault fault, ⟨after, buffers⟩) := by
  rw [perform_asked carried]
  simp only [WorkspaceM.addBuffer, run_bind, WorkspaceM.onMemory]
  cases make memory with
  | ok made after => rfl
  | error fault after => rfl

private theorem roomy_set {id : BufferId} {later : Buffer} (inside : id.index < buffers.size)
    (roomy : Roomy ((Workspace.mk memory buffers).buffer id) later) (other : BufferId) :
    Roomy ((Workspace.mk memory buffers).buffer other)
      ((Workspace.mk after (buffers.setIfInBounds id.index later)).buffer other) := by
  by_cases same : other = id
  · subst same
    rwa [buffer_setIfInBounds_self inside]
  · rw [buffer_setIfInBounds_other same buffers later after memory]
    exact .refl _

/-- An operation on a buffer that did what it does to the slots. -/
theorem stepped_of_acts {α : Type} {command : BufferCommand} {id : BufferId}
    {operation : BufferM α} {answer : α → Answer} {result : α} {state : BufferState}
    {old new : Slots} (shows : Shows ⟨memory, buffers⟩ model)
    (known : model.slots? id = some old)
    (carried : WorkspaceM.carryOut command ⟨memory, buffers⟩ =
      (answer <$> WorkspaceM.onBuffer id operation) ⟨memory, buffers⟩)
    (ran : operation ⟨(Workspace.mk memory buffers).buffer id, memory⟩ = .ok result state)
    (acts : Buffer.Acts 0 ((Workspace.mk memory buffers).buffer id) memory state.buffer
      state.memory new) :
    Stepped ⟨memory, buffers⟩ command (answer result) (model.replace id new) := by
  have performed := perform_onBuffer carried
  rw [ran] at performed
  refine ⟨by rw [performed], ?_, ?_⟩
  · rw [performed]
    exact shows.replaced known acts.advance acts.shows
  · intro other _ _ _
    rw [performed]
    exact roomy_set (shows.lt known) ⟨acts.advance.make.layout_eq, acts.blockSize_le⟩ other

theorem stepped_of_supplied {command : BufferCommand} {id : BufferId} {operation : BufferM Unit}
    {old new : Slots} (shows : Shows ⟨memory, buffers⟩ model)
    (known : model.slots? id = some old)
    (carried : WorkspaceM.carryOut command ⟨memory, buffers⟩ =
      WorkspaceM.noted (WorkspaceM.onBuffer id operation) ⟨memory, buffers⟩)
    (supplied : Supplied (operation ⟨(Workspace.mk memory buffers).buffer id, memory⟩)
      fun _ state => Buffer.Acts 0 ((Workspace.mk memory buffers).buffer id) memory state.buffer
        state.memory new)
    (lasting : ((Workspace.mk memory buffers).perform command).1.isShortage = false) :
    Stepped ⟨memory, buffers⟩ command .nothing (model.replace id new) := by
  cases ran : operation ⟨(Workspace.mk memory buffers).buffer id, memory⟩ with
  | ok result state =>
      rw [ran] at supplied
      exact stepped_of_acts shows known carried ran supplied
  | error fault state =>
      rw [ran] at supplied
      have short : fault.IsShortage = true := supplied
      rw [perform_onBuffer carried, ran] at lasting
      exact absurd lasting (by simpa [Answer.isShortage] using short)

theorem onBuffer_answer {α : Type} {operation : BufferM α} {found : Except Fault α}
    {workspace : Workspace} {id : BufferId}
    (ran : operation ⟨workspace.buffer id, workspace.memory⟩ =
      answer found ⟨workspace.buffer id, workspace.memory⟩) :
    WorkspaceM.onBuffer id operation workspace = answer found workspace := by
  have same := setIfInBounds_buffer workspace id
  obtain ⟨memory, buffers⟩ := workspace
  unfold Workspace.buffer at ran same
  simp only [WorkspaceM.onBuffer] at ran same ⊢
  rw [ran]
  cases found with
  | ok result => simp only [answer, same]
  | error fault => simp only [answer, same]

theorem perform_answer {α : Type} {command : BufferCommand} {id : BufferId}
    {operation : BufferM α} {answer : α → Answer} {found : Except Fault α} {workspace : Workspace}
    (carried : WorkspaceM.carryOut command workspace =
      (answer <$> WorkspaceM.onBuffer id operation) workspace)
    (ran : operation ⟨workspace.buffer id, workspace.memory⟩ =
      Running.answer found ⟨workspace.buffer id, workspace.memory⟩) :
    workspace.perform command = (SlotMemory.told answer found, workspace) := by
  rw [perform_asked carried, onBuffer_answer ran]
  cases found <;> rfl

theorem stepped_of_answer {α : Type} {command : BufferCommand} {id : BufferId}
    {operation : BufferM α} {answer : α → Answer} {found : Except Fault α}
    (shows : Shows ⟨memory, buffers⟩ model)
    (carried : WorkspaceM.carryOut command ⟨memory, buffers⟩ =
      (answer <$> WorkspaceM.onBuffer id operation) ⟨memory, buffers⟩)
    (ran : operation ⟨(Workspace.mk memory buffers).buffer id, memory⟩ =
      Running.answer found ⟨(Workspace.mk memory buffers).buffer id, memory⟩) :
    Stepped ⟨memory, buffers⟩ command (SlotMemory.told answer found) model :=
  stepped_unchanged shows (perform_answer carried ran)

/-! ## Making, copying and moving -/

private theorem roomy_push {id : BufferId} (inside : id.index < buffers.size) (made : Buffer) :
    Roomy ((Workspace.mk memory buffers).buffer id)
      ((Workspace.mk after (buffers.push made)).buffer id) := by
  have old : id ≠ ⟨buffers.size⟩ := by
    rintro rfl
    exact Nat.lt_irrefl _ inside
  rw [buffer_push_other old made after memory]
  exact .refl _

theorem stepped_of_making {command : BufferCommand} {make : MemoryM Buffer} {blank : Buffer}
    {slots : Slots} (shows : Shows ⟨memory, buffers⟩ model)
    (performed : (Workspace.mk memory buffers).perform command =
      match make memory with
      | .ok made after => (.buffer ⟨buffers.size⟩, ⟨after, buffers.push made⟩)
      | .error fault after => (.fault fault, ⟨after, buffers⟩))
    (block : blank.block = none)
    (supplied : Supplied (make memory) fun made after =>
      Buffer.Acts 0 blank memory made after slots)
    (lasting : ((Workspace.mk memory buffers).perform command).1.isShortage = false) :
    Stepped ⟨memory, buffers⟩ command (model.add slots).1 (model.add slots).2 := by
  cases ran : make memory with
  | ok made after =>
      rw [ran] at performed supplied
      have acts : Buffer.Acts 0 blank memory made after slots := supplied
      refine ⟨?_, ?_, ?_⟩
      · rw [performed, SlotMemory.add, ← shows.size_eq]
      · rw [performed]
        exact shows.added block acts.advance acts.shows
      · intro id inside _ _
        rw [performed]
        exact roomy_push inside made
  | error fault after =>
      rw [ran] at performed supplied
      have short : fault.IsShortage = true := supplied
      rw [performed] at lasting
      exact absurd lasting (by simpa [Answer.isShortage] using short)

/-- Making a buffer makes what the blank buffer of its make becomes. -/
theorem stepped_of_creation {command : BufferCommand} (blank : Buffer)
    (shows : Shows ⟨memory, buffers⟩ model)
    (carried : WorkspaceM.carryOut command ⟨memory, buffers⟩ =
      (Answer.buffer <$> WorkspaceM.addBuffer blank.spawn) ⟨memory, buffers⟩)
    (regular : (Slots.fresh blank.role blank.layout).Regular)
    (lasting : ((Workspace.mk memory buffers).perform command).1.isShortage = false) :
    Stepped ⟨memory, buffers⟩ command (model.add (.fresh blank.role blank.layout)).1
      (model.add (.fresh blank.role blank.layout)).2 :=
  stepped_of_making shows (perform_addBuffer carried) rfl
    ((Buffer.supplied_spawn (shows.sound.fits _) regular).imp fun _ _ made => made.acts) lasting

theorem stepped_newBuffer {allocator : AllocatorId} {pattern : String} {inlineCapacity : Int}
    {layout : Layout} (shows : Shows ⟨memory, buffers⟩ model)
    (read : Layout.ofPattern? pattern = some layout)
    (contains : ∃ offset type, layout.Contains offset type)
    (lasting : ((Workspace.mk memory buffers).perform
      (.newBuffer allocator pattern inlineCapacity)).1.isShortage = false) :
    Stepped ⟨memory, buffers⟩ (.newBuffer allocator pattern inlineCapacity)
      (model.add (.fresh .items layout)).1 (model.add (.fresh .items layout)).2 := by
  refine stepped_of_creation ⟨allocator, .items, layout, inlineCapacity, 0, none, false⟩ shows ?_
    ⟨contains, fun text => by cases text⟩ lasting
  rw [WorkspaceM.carryOut, WorkspaceM.newBuffer, read]
  rfl

theorem stepped_newText {allocator : AllocatorId} {inlineCapacity : Int}
    (shows : Shows ⟨memory, buffers⟩ model)
    (lasting : ((Workspace.mk memory buffers).perform
      (.newText allocator inlineCapacity)).1.isShortage = false) :
    Stepped ⟨memory, buffers⟩ (.newText allocator inlineCapacity)
      (model.add (.fresh .text Layout.byteLayout)).1
      (model.add (.fresh .text Layout.byteLayout)).2 :=
  stepped_of_creation ⟨allocator, .text, Layout.byteLayout, inlineCapacity, 0, none, false⟩ shows
    rfl ⟨⟨0, _, Layout.contains_byteLayout⟩, fun _ => rfl⟩ lasting

theorem copy_eq (id : BufferId) (workspace : Workspace) :
    WorkspaceM.copy id workspace =
      WorkspaceM.addBuffer (Buffer.copy (workspace.buffer id)) workspace := by
  have same := setIfInBounds_buffer workspace id
  obtain ⟨memory, buffers⟩ := workspace
  unfold Workspace.buffer at same ⊢
  simp only [WorkspaceM.copy, WorkspaceM.addBuffer, run_bind, WorkspaceM.onBuffer, BufferM.copy,
    BufferM.observe, WorkspaceM.onMemory, run_pure] at same ⊢
  cases Buffer.copy (buffers.getD id.index absentBuffer) memory with
  | ok clone after =>
      dsimp only
      rw [same]
  | error fault after =>
      dsimp only
      rw [same]

theorem carryOut_copy (id : BufferId) (workspace : Workspace) :
    WorkspaceM.carryOut (.copy id) workspace =
      (Answer.buffer <$> WorkspaceM.addBuffer (Buffer.copy (workspace.buffer id))) workspace := by
  rw [WorkspaceM.carryOut, map_eq_pure_bind, map_eq_pure_bind, run_bind, run_bind, copy_eq]

theorem stepped_copy {id : BufferId} {old : Slots} (shows : Shows ⟨memory, buffers⟩ model)
    (known : model.slots? id = some old)
    (lasting : ((Workspace.mk memory buffers).perform (.copy id)).1.isShortage = false) :
    Stepped ⟨memory, buffers⟩ (.copy id) (model.add old.copied).1 (model.add old.copied).2 :=
  stepped_of_making shows (perform_addBuffer (carryOut_copy id _)) rfl
    (Buffer.supplied_copy (shows.sound.ready id) (shows.buffer id old known)) lasting

end LexKit.Workspace
