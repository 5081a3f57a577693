import LexKit.Proofs.Buffer.Inline
import LexKit.Proofs.Workspace.Resetting

/-!
# Inline storage

A buffer with inline storage keeps its elements there as long as no command to it needs more places.
The allocator does not hear of any such command, and hears of the first other one by requests for
the places that are missing.
-/

set_option autoImplicit false

namespace LexKit

namespace BufferCommand

inductive Use (id : BufferId) : BufferCommand → Prop where
  | push (value : Value) : Use id (.push id value)
  | extend (values : List Value) : Use id (.extend id values)
  | extendBy (source : BufferId) : Use id (.extendBy id source)
  | get (index : Int) : Use id (.get id index)
  | set (index : Int) (value : Value) : Use id (.set id index value)
  | pop : Use id (.pop id)
  | clear : Use id (.clear id)
  | reserve (capacity : Int) : Use id (.reserve id capacity)
  | resize (count : Int) : Use id (.resize id count)
  | take : Use id (.take id)
  | release : Use id (.release id)
  | length : Use id (.length id)
  | toList : Use id (.toList id)
  | toBytes : Use id (.toBytes id)

/-- The buffer that the command is directed at has no block any more afterwards. -/
def partsWithBlock : BufferCommand → Bool
  | .take _ | .release _ => true
  | _ => false

def isExtension : BufferCommand → Bool
  | .extend _ _ | .extendBy _ _ => true
  | _ => false

/-- How many places a command comes to need in the buffer that it is directed at. Each value that is
pushed needs one, also where it turns out that the item rejects it. -/
def placesNeeded (workspace : Workspace) : BufferCommand → Int
  | .push id _ => ((workspace.buffer id).count + 1 : Nat)
  | .extend id values =>
      ((workspace.buffer id).count + (workspace.buffer id).layout.tried values : Nat)
  | .extendBy id source =>
      ((workspace.buffer id).count + (workspace.buffer id).layout.tried
        ((workspace.buffer source).readBy ⟨workspace.buffer id, workspace.memory⟩) : Nat)
  | .reserve _ capacity => capacity
  | .resize _ count => count
  | _ => 0

end BufferCommand

namespace Workspace

open Running

variable {workspace start : Workspace} {memory : Memory} {buffers : Array Buffer} {id : BufferId}
  {shelter : Buffer} {command : BufferCommand} {commands : List BufferCommand}
  {allocator : AllocatorId} {pattern : String} {layout : Layout} {slots : Nat}

/-- No command needs more than so many places, and none needs any once the buffer has parted with
its block. -/
def Modest (id : BufferId) (slots : Nat) : List BufferCommand → Workspace → Prop
  | [], _ => True
  | command :: rest, workspace =>
      command.placesNeeded workspace ≤ slots ∧
        Modest id (if command.partsWithBlock then 0 else slots) rest (workspace.perform command).2

instance decidableModest (id : BufferId) (slots : Nat) :
    (commands : List BufferCommand) → (workspace : Workspace) →
      Decidable (Modest id slots commands workspace)
  | [], _ => isTrue trivial
  | command :: rest, workspace =>
      have := decidableModest id (if command.partsWithBlock then 0 else slots) rest
        (workspace.perform command).2
      inferInstanceAs (Decidable (_ ∧ _))

/-! ## One command -/

theorem performed_onBuffer {α : Type} {operation : BufferM α} {answer : α → Answer}
    (carried : WorkspaceM.carryOut command ⟨memory, buffers⟩ =
      (answer <$> WorkspaceM.onBuffer id operation) ⟨memory, buffers⟩) :
    ((Workspace.mk memory buffers).perform command).2 =
      ⟨(final (operation ⟨(Workspace.mk memory buffers).buffer id, memory⟩)).memory,
        buffers.setIfInBounds id.index
          (final (operation ⟨(Workspace.mk memory buffers).buffer id, memory⟩)).buffer⟩ := by
  rw [perform_onBuffer carried]
  cases operation ⟨(Workspace.mk memory buffers).buffer id, memory⟩ <;> rfl

/-- The buffer has the block of `shelter`, which no allocator supplied, and no more elements than it
has places. The allocator cannot come to hand out its bytes. -/
structure Sheltered (shelter : Buffer) (id : BufferId) (workspace : Workspace) : Prop where
  known : id.index < workspace.buffers.size
  buffer_eq : ∃ count ≤ shelter.blockSize / shelter.layout.size,
    workspace.buffer id = { shelter with count }
  apart : ∀ extent, shelter.block = some extent → ∀ storage index,
    extent.Covers storage index → ¬workspace.memory.Remaining shelter.allocator storage index

namespace Sheltered

theorem layout_eq (sheltered : workspace.Sheltered shelter id) :
    (workspace.buffer id).layout = shelter.layout := by
  obtain ⟨count, -, same⟩ := sheltered.buffer_eq
  rw [same]

theorem blockSize_eq (sheltered : workspace.Sheltered shelter id) :
    (workspace.buffer id).blockSize = shelter.blockSize := by
  obtain ⟨count, -, same⟩ := sheltered.buffer_eq
  rw [same]
  rfl

theorem owned?_eq (sheltered : workspace.Sheltered shelter id) :
    (workspace.buffer id).owned? = shelter.owned? := by
  obtain ⟨count, -, same⟩ := sheltered.buffer_eq
  rw [same]
  rfl

theorem room (sheltered : workspace.Sheltered shelter id) :
    (workspace.buffer id).count ≤
      (workspace.buffer id).blockSize / (workspace.buffer id).layout.size := by
  rw [sheltered.blockSize_eq, sheltered.layout_eq]
  obtain ⟨count, room, same⟩ := sheltered.buffer_eq
  rw [same]
  exact room

end Sheltered

/-- A sheltered buffer can be used: what counts fits its block, and the block lies outside of what
the allocator has left. -/
theorem Sheltered.ready (sheltered : workspace.Sheltered shelter id)
    (standing : workspace.Standing) : (workspace.buffer id).Ready workspace.memory := by
  refine ⟨standing.fits _, fun extent block => ⟨standing.held id extent block, ?_⟩⟩
  obtain ⟨-, ⟨count, -, same⟩, apart⟩ := sheltered
  rw [same] at block ⊢
  exact apart extent block

theorem Sheltered.rested {state : BufferState}
    (sheltered : Sheltered shelter id ⟨memory, buffers⟩)
    (rests : Buffer.Rests ((Workspace.mk memory buffers).buffer id) memory state) :
    Sheltered shelter id ⟨state.memory, buffers.setIfInBounds id.index state.buffer⟩ := by
  obtain ⟨known, ⟨count, -, same⟩, apart⟩ := sheltered
  obtain ⟨-, allocator_eq, later, within, left⟩ := rests
  rw [same] at allocator_eq within left
  refine ⟨by rwa [Array.size_setIfInBounds], ⟨later, within, ?_⟩, ?_⟩
  · rw [buffer_setIfInBounds_self known, left]
  · intro extent block storage index covered remains
    refine apart extent block storage index covered ?_
    obtain ⟨region, used, open_, rest⟩ := remains
    exact ⟨region, used, allocator_eq.symm.trans open_, rest⟩

/-- What a command to the buffer does that needs no more places than there are. -/
structure Unnoticed (shelter : Buffer) (id : BufferId) (command : BufferCommand)
    (before after : Workspace) : Prop where
  calls_eq : after.memory.calls = before.memory.calls
  sheltered : Sheltered shelter id after ∨
    command.partsWithBlock = true ∧ Sheltered shelter.emptied id after

theorem unnoticed_of_rests {α : Type} {operation : BufferM α} {answer : α → Answer}
    (sheltered : Sheltered shelter id ⟨memory, buffers⟩)
    (carried : WorkspaceM.carryOut command ⟨memory, buffers⟩ =
      (answer <$> WorkspaceM.onBuffer id operation) ⟨memory, buffers⟩)
    (rests : Buffer.Rests ((Workspace.mk memory buffers).buffer id) memory
      (final (operation ⟨(Workspace.mk memory buffers).buffer id, memory⟩))) :
    Unnoticed shelter id command ⟨memory, buffers⟩
      ((Workspace.mk memory buffers).perform command).2 := by
  rw [performed_onBuffer carried]
  exact ⟨rests.calls_eq, .inl (sheltered.rested rests)⟩

theorem unnoticed_of_answer {answer : Answer} (sheltered : workspace.Sheltered shelter id)
    (performed : workspace.perform command = (answer, workspace)) :
    Unnoticed shelter id command workspace (workspace.perform command).2 := by
  rw [performed]
  exact ⟨rfl, .inl sheltered⟩

theorem unnoticed_take (sheltered : workspace.Sheltered shelter id) :
    Unnoticed shelter id (.take id) workspace (workspace.perform (.take id)).2 := by
  obtain ⟨memory, buffers⟩ := workspace
  obtain ⟨known, ⟨count, room, same⟩, apart⟩ := sheltered
  rw [perform_final]
  have carried : final (WorkspaceM.carryOut (.take id) ⟨memory, buffers⟩) =
      final (WorkspaceM.take id ⟨memory, buffers⟩) := final_map _ _ _
  rw [carried]
  obtain ⟨after, changed, calls_eq, ⟨fault, refused⟩ | taken⟩ := take_cases memory buffers id
  · rw [refused]
    refine ⟨calls_eq, .inl ⟨known, ⟨count, room, same⟩, ?_⟩⟩
    intro extent block storage index covered remains
    exact apart extent block storage index covered (changed.remaining _ _ _ remains)
  · rw [taken]
    refine ⟨calls_eq, .inr ⟨rfl, ?_, ⟨0, Nat.zero_le _, ?_⟩, ?_⟩⟩
    · simp only [final, Array.size_push, Array.size_setIfInBounds]
      exact Nat.lt_succ_of_lt known
    · have old : id ≠ ⟨buffers.size⟩ := by
        rintro rfl
        exact Nat.lt_irrefl _ known
      simp only [final]
      rw [buffer_taken memory after known, if_neg old, if_pos rfl, same]
      rfl
    · intro extent block
      cases block

theorem unnoticed_perform (unowned : shelter.owned? = none) (sized : 0 < shelter.layout.size)
    (sheltered : workspace.Sheltered shelter id) (use : command.Use id)
    (modest : command.placesNeeded workspace ≤ (shelter.blockSize / shelter.layout.size : Nat)) :
    Unnoticed shelter id command workspace (workspace.perform command).2 := by
  obtain ⟨memory, buffers⟩ := workspace
  have room := sheltered.room
  rw [← sheltered.owned?_eq] at unowned
  rw [← sheltered.layout_eq] at sized
  rw [← sheltered.blockSize_eq, ← sheltered.layout_eq] at modest
  cases use with
  | push value =>
      refine unnoticed_of_rests sheltered rfl ?_
      exact (Buffer.extended_push unowned sized room value).rests (Int.ofNat_le.mp modest)
  | extend values =>
      refine unnoticed_of_rests sheltered rfl ?_
      exact (Buffer.extended_extend unowned sized room values).rests (Int.ofNat_le.mp modest)
  | extendBy source =>
      have carried : WorkspaceM.carryOut (.extendBy id source) ⟨memory, buffers⟩ =
          WorkspaceM.noted (WorkspaceM.onBuffer id
            (BufferM.extendBy ((Workspace.mk memory buffers).buffer source))) ⟨memory, buffers⟩ :=
        rfl
      refine unnoticed_of_rests sheltered carried ?_
      rw [Buffer.final_extendBy]
      exact (Buffer.extended_extend unowned sized room _).rests (Int.ofNat_le.mp modest)
  | get index => exact unnoticed_of_answer sheltered (perform_answer rfl (get_answer _ _))
  | set index value => exact unnoticed_of_rests sheltered rfl (Buffer.rests_set room _ value)
  | pop => exact unnoticed_of_rests sheltered rfl (Buffer.rests_pop room)
  | clear =>
      exact unnoticed_of_rests sheltered rfl ⟨rfl, rfl, 0, Nat.zero_le _, rfl⟩
  | reserve capacity =>
      exact unnoticed_of_rests sheltered rfl (Buffer.rests_reserve room sized modest)
  | resize count =>
      exact unnoticed_of_rests sheltered rfl (Buffer.rests_resize room sized modest)
  | take => exact unnoticed_take sheltered
  | release =>
      rw [performed_onBuffer rfl, Buffer.release_of_unowned unowned]
      refine ⟨rfl, .inr ⟨rfl, ?_, ⟨0, Nat.zero_le _, ?_⟩, ?_⟩⟩
      · rw [Array.size_setIfInBounds]
        exact sheltered.known
      · obtain ⟨count, -, same⟩ := sheltered.buffer_eq
        rw [final, buffer_setIfInBounds_self sheltered.known, same]
        rfl
      · intro extent block
        cases block
  | length => exact unnoticed_of_answer sheltered rfl
  | toList => exact unnoticed_of_answer sheltered (perform_answer rfl (toList_answer _))
  | toBytes => exact unnoticed_of_answer sheltered rfl

/-! ## Runs -/

theorem standing_perform (standing : workspace.Standing) (command : BufferCommand) :
    (workspace.perform command).2.Standing := by
  rw [perform_final]
  exact (secures_carryOut standing command).standing

theorem standing_performAll (standing : workspace.Standing) (commands : List BufferCommand) :
    (performAll commands workspace).2.Standing := by
  induction commands generalizing workspace with
  | nil => exact standing
  | cons command rest ih => exact ih (standing_perform standing command)

/-- No command of a modest run is noticed by the allocator. -/
theorem unnoticed_performAll (unowned : shelter.owned? = none) (sized : 0 < shelter.layout.size)
    (sheltered : workspace.Sheltered shelter id)
    (enough : slots ≤ shelter.blockSize / shelter.layout.size)
    (uses : ∀ command ∈ commands, command.Use id) (modest : Modest id slots commands workspace) :
    (performAll commands workspace).2.memory.calls = workspace.memory.calls ∧
      ((∀ command ∈ commands, command.partsWithBlock = false) →
        (performAll commands workspace).2.Sheltered shelter id) := by
  induction commands generalizing workspace shelter slots with
  | nil => exact ⟨rfl, fun _ => sheltered⟩
  | cons command rest ih =>
      obtain ⟨within, behind⟩ := modest
      have later := fun other member => uses other (List.mem_cons_of_mem command member)
      have once := unnoticed_perform unowned sized sheltered (uses command List.mem_cons_self)
        (Int.le_trans within (Int.ofNat_le.mpr enough))
      rcases once.sheltered with still | ⟨parts, emptied⟩
      · have fewer : (if command.partsWithBlock then 0 else slots) ≤
            shelter.blockSize / shelter.layout.size := by
          split
          · exact Nat.zero_le _
          · exact enough
        obtain ⟨calls_eq, last⟩ := ih unowned sized still fewer later behind
        exact ⟨calls_eq.trans once.calls_eq, fun whole =>
          last fun other member => whole other (List.mem_cons_of_mem command member)⟩
      · rw [parts] at behind
        obtain ⟨calls_eq, -⟩ :=
          ih (shelter.owned?_emptied) sized emptied (Nat.zero_le _) later behind
        refine ⟨calls_eq.trans once.calls_eq, fun whole => ?_⟩
        cases parts.symm.trans (whole command List.mem_cons_self)

/-- A new buffer with inline places is sheltered by its own block. -/
theorem sheltered_newBuffer (standing : workspace.Standing)
    (read : Layout.ofPattern? pattern = some layout) (positive : 0 < slots)
    (made : workspace.perform (.newBuffer allocator pattern slots) = (.buffer id, start)) :
    start.Sheltered (start.buffer id) id ∧ start.memory.calls = workspace.memory.calls ∧
      ∃ storage, start.buffer id =
        ⟨allocator, .items, layout, slots, 0, some ⟨storage, 0, slots * layout.size⟩, true⟩ := by
  obtain ⟨memory, buffers⟩ := workspace
  have inline : (slots : Int) > 0 := Int.natCast_pos.mpr positive
  have performed : (Workspace.mk memory buffers).perform (.newBuffer allocator pattern slots) =
      match Memory.newStorage (slots * layout.size) memory with
      | .ok storage after => (.buffer ⟨buffers.size⟩, ⟨after, buffers.push
          ⟨allocator, .items, layout, slots, 0, some ⟨storage, 0, slots * layout.size⟩, true⟩⟩)
      | .error fault after => (.fault fault, ⟨after, buffers⟩) := by
    have carried : WorkspaceM.carryOut (.newBuffer allocator pattern slots) ⟨memory, buffers⟩ =
        (.buffer <$> WorkspaceM.newBuffer allocator pattern slots) ⟨memory, buffers⟩ := rfl
    rw [perform_asked carried]
    simp only [WorkspaceM.newBuffer, read, WorkspaceM.addBuffer, WorkspaceM.onMemory, run_bind,
      Buffer.create, if_pos inline]
    cases Memory.newStorage (slots * layout.size) memory <;> rfl
  rw [performed] at made
  rcases Memory.newStorage_cases (slots * layout.size) memory with ⟨fault, refused, -⟩ | supplied
  · rw [refused] at made
    cases made
  · rw [supplied] at made
    cases made
    refine ⟨⟨?_, ⟨0, Nat.zero_le _, ?_⟩, ?_⟩, rfl, (memory.addStorage
      (Storage.zeros (slots * layout.size))).1, buffer_push_self _ _ _⟩
    · rw [Array.size_push]
      exact Nat.lt_succ_self _
    · rw [buffer_push_self]
    · -- The storage is a new one, and a region lies in one that there was.
      rw [buffer_push_self]
      rintro extent block storage index ⟨rfl, -⟩ ⟨region, used, known, same, -⟩
      cases block
      have held := (standing.fits allocator region used known).1.storage_lt
      rw [← same] at held
      exact Nat.lt_irrefl _ held

/-! ## Beyond the places that there are -/

/-- What a command to the buffer does that needs more places than there are. -/
structure Outgrows (id : BufferId) (command : BufferCommand) (before after : Workspace) :
    Prop where
  kept : (before.buffer id).elements before.memory <+: (after.buffer id).elements after.memory
  once : command.isExtension = false → ∃ size result, after.memory.calls =
    .allocate (before.buffer id).allocator size result :: before.memory.calls
  /-- An extension asks again each time that the places it has obtained are full. -/
  enlarged : command.isExtension = true → Buffer.Enlarged (before.buffer id)
    (command.placesNeeded before).toNat before.memory.calls after.memory.calls

theorem outgrows_of_kept {α : Type} {operation : BufferM α} {answer : α → Answer}
    (known : id.index < buffers.size)
    (carried : WorkspaceM.carryOut command ⟨memory, buffers⟩ =
      (answer <$> WorkspaceM.onBuffer id operation) ⟨memory, buffers⟩)
    {state : BufferState}
    (left : final (operation ⟨(Workspace.mk memory buffers).buffer id, memory⟩) = state)
    (kept : ((Workspace.mk memory buffers).buffer id).elements memory <+:
      state.buffer.elements state.memory)
    (once : command.isExtension = false → ∃ size result, state.memory.calls =
      .allocate ((Workspace.mk memory buffers).buffer id).allocator size result :: memory.calls)
    (enlarged : command.isExtension = true →
      Buffer.Enlarged ((Workspace.mk memory buffers).buffer id)
        (command.placesNeeded ⟨memory, buffers⟩).toNat memory.calls state.memory.calls) :
    Outgrows id command ⟨memory, buffers⟩ ((Workspace.mk memory buffers).perform command).2 := by
  rw [performed_onBuffer carried, left]
  refine ⟨?_, once, enlarged⟩
  rw [buffer_setIfInBounds_self known]
  exact kept

theorem outgrows_perform {item : Nat × FieldType} (standing : workspace.Standing)
    (unowned : shelter.owned? = none) (sized : 0 < shelter.layout.size)
    (single : shelter.layout.singleItem? = some item) (sheltered : workspace.Sheltered shelter id)
    (use : command.Use id)
    (beyond : (shelter.blockSize / shelter.layout.size : Nat) < command.placesNeeded workspace) :
    Outgrows id command workspace (workspace.perform command).2 := by
  obtain ⟨memory, buffers⟩ := workspace
  have room := sheltered.room
  have ready := sheltered.ready standing
  have housed := standing.housed id
  have known := sheltered.known
  have needed := Int.lt_of_le_of_lt (Int.natCast_nonneg _) beyond
  rw [← sheltered.owned?_eq] at unowned
  rw [← sheltered.layout_eq] at sized single
  rw [← sheltered.blockSize_eq, ← sheltered.layout_eq] at beyond
  cases use with
  | push value =>
      have full : ((Workspace.mk memory buffers).buffer id).count + 1 =
          ((Workspace.mk memory buffers).buffer id).blockSize /
            ((Workspace.mk memory buffers).buffer id).layout.size + 1 :=
        Nat.le_antisymm (Nat.succ_le_succ room) (Int.ofNat_lt.mp beyond)
      exact outgrows_of_kept known rfl rfl (Buffer.keeps_push ready housed single value).kept
        (fun _ => ((Buffer.extended_push unowned sized room value).enlarged sized).single full)
        (fun extension => by cases extension)
  | extend values =>
      exact outgrows_of_kept known rfl rfl (Buffer.keeps_extend ready housed single values).kept
        (fun other => by cases other)
        (fun _ => (Buffer.extended_extend unowned sized room values).enlarged sized)
  | extendBy source =>
      have carried : WorkspaceM.carryOut (.extendBy id source) ⟨memory, buffers⟩ =
          WorkspaceM.noted (WorkspaceM.onBuffer id
            (BufferM.extendBy ((Workspace.mk memory buffers).buffer source))) ⟨memory, buffers⟩ :=
        rfl
      exact outgrows_of_kept known carried (Buffer.final_extendBy _ _)
        (Buffer.keeps_extend ready housed single _).kept (fun other => by cases other)
        (fun _ => (Buffer.extended_extend unowned sized room _).enlarged sized)
  | reserve capacity =>
      refine outgrows_of_kept known rfl rfl (Buffer.keeps_reserve ready housed capacity).kept
        (fun _ => ?_) (fun extension => by cases extension)
      rw [BufferM.reserve, Buffer.memory_replace]
      exact Buffer.reserve_called unowned sized beyond memory
  | resize count =>
      refine outgrows_of_kept known rfl rfl (Buffer.prefix_resize ready housed sized beyond)
        (fun _ => ?_) (fun extension => by cases extension)
      rw [BufferM.resize, Buffer.memory_replace]
      exact Buffer.resize_called unowned sized beyond memory
  | _ => exact absurd needed (Int.lt_irrefl 0)

/-- A run of commands to one new buffer with inline places, whatever was done to the workspace and
its allocators before. -/
theorem inline_until_outgrown {machine : Machine} {item : Nat × FieldType}
    {setup : List StoreCommand} (read : Layout.ofPattern? pattern = some layout) (single : layout.singleItem? = some item)
    (sized : 0 < layout.size) (positive : 0 < slots)
    (made : ((empty machine).obeyAll setup).perform (.newBuffer allocator pattern slots) =
      (.buffer id, start))
    (uses : ∀ command ∈ commands, command.Use id) (modest : Modest id slots commands start) :
    (performAll commands start).2.memory.calls = ((empty machine).obeyAll setup).memory.calls ∧
      ((∀ command ∈ commands, command.partsWithBlock = false) →
        ((performAll commands start).2.buffer id).isInline = true ∧
        ((performAll commands start).2.buffer id).capacity = .ok slots ∧
        ∀ command : BufferCommand, command.Use id →
          slots < command.placesNeeded (performAll commands start).2 →
            Outgrows id command (performAll commands start).2
              ((performAll commands start).2.perform command).2) := by
  have before := standing_obeyAll (standing_empty machine) setup
  obtain ⟨sheltered, calls_eq, storage, fresh⟩ := sheltered_newBuffer before read positive made
  have standing := standing_perform before (.newBuffer allocator pattern slots)
  rw [made] at standing
  have layout_eq : (start.buffer id).layout = layout := by rw [fresh]
  have unowned : (start.buffer id).owned? = none := by
    rw [fresh]
    rfl
  have places : (start.buffer id).blockSize / (start.buffer id).layout.size = slots := by
    rw [fresh]
    exact Nat.mul_div_cancel slots sized
  rw [← layout_eq] at sized single
  obtain ⟨unasked, last⟩ :=
    unnoticed_performAll unowned sized sheltered (Nat.le_of_eq places.symm) uses modest
  refine ⟨unasked.trans calls_eq, fun whole => ?_⟩
  have still := last whole
  refine ⟨?_, ?_, fun command use beyond => ?_⟩
  · obtain ⟨count, -, same⟩ := still.buffer_eq
    rw [same, fresh]
  · rw [Buffer.capacity_eq (by rw [still.layout_eq]; exact sized), still.blockSize_eq,
      still.layout_eq, places]
  · rw [← places] at beyond
    exact outgrows_perform (standing_performAll standing commands) unowned sized single still use
      beyond

def fourInline : Workspace :=
  ((empty.obeyAll [.follow (.onBuffers .newHeap)]).perform (.newBuffer ⟨0⟩ "B" 4)).2

def upToFour : List BufferCommand :=
  [.push ⟨0⟩ (.int 1), .extend ⟨0⟩ [.int 2, .int 3], .pop ⟨0⟩, .resize ⟨0⟩ 4]

theorem inline_until_outgrown_four :
    (performAll upToFour fourInline).2.memory.calls = [] ∧
      ((performAll upToFour fourInline).2.buffer ⟨0⟩).isInline = true ∧
        Outgrows ⟨0⟩ (.push ⟨0⟩ (.int 5)) (performAll upToFour fourInline).2
          ((performAll upToFour fourInline).2.perform (.push ⟨0⟩ (.int 5))).2 := by
  have uses : ∀ command ∈ upToFour, command.Use ⟨0⟩ := by
    simp only [upToFour, List.forall_mem_cons]
    exact ⟨.push _, .extend _, .pop, .resize _, List.forall_mem_nil _⟩
  have made : (empty.obeyAll [.follow (.onBuffers .newHeap)]).perform
      (.newBuffer ⟨0⟩ "B" (4 : Nat)) = (.buffer ⟨0⟩, fourInline) := rfl
  have read : Layout.ofPattern? "B" = some Layout.byteLayout := by decide
  obtain ⟨unasked, whole⟩ :=
    inline_until_outgrown read rfl (by decide) (by decide) made uses (by decide +kernel)
  obtain ⟨inline, -, outgrows⟩ := whole (by decide)
  exact ⟨unasked, inline, outgrows _ (.push _) (by decide +kernel)⟩

/-- An extension by many values asks more than once. After a buffer has parted with its block, its
inline places are gone. -/
theorem not_once_beyond_inline :
    (¬∀ values, 4 < BufferCommand.placesNeeded fourInline (.extend ⟨0⟩ values) →
      ∃ size result, (fourInline.perform (.extend ⟨0⟩ values)).2.memory.calls =
        [.allocate ⟨0⟩ size result]) ∧
    (∀ steps ≤ 2, ((performAll ([.release ⟨0⟩, .push ⟨0⟩ (.int 2)].take steps)
      fourInline).2.buffer ⟨0⟩).count ≤ 1) ∧
    (performAll [.release ⟨0⟩, .push ⟨0⟩ (.int 2)] fourInline).2.memory.calls ≠ [] := by
  refine ⟨?_, ?_, ?_⟩
  · intro single
    obtain ⟨size, result, called⟩ := single (List.replicate 20 (.int 7)) (by decide +kernel)
    -- Eight, sixteen and thirty-two places, and two blocks that are given back.
    have five : (fourInline.perform (.extend ⟨0⟩
        (List.replicate 20 (.int 7)))).2.memory.calls.length = 5 := by
      decide +kernel
    rw [called] at five
    cases five
  · decide +kernel
  · decide +kernel

end Workspace

end LexKit
