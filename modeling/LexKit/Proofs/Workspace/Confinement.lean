import LexKit.Proofs.Workspace.Cleanup
import LexKit.Proofs.Workspace.Standing

/-!
# Confinement

What actions on a workspace leave alone, whatever they give. The buffers stay orderly, and a buffer
that an action is not directed at is the same afterwards, with the same bytes. Buffers that an
action makes were not there before, so what it does to them does not count.
-/

set_option autoImplicit false

namespace LexKit.Workspace

open Running

variable {memory after : Memory} {buffers : Array Buffer} {first second third : Workspace}
  {targets more : List BufferId} {id : BufferId} {sure : Prop}

/-- Blocks lie apart, and each buffer has room for all that it counts. -/
structure Orderly (workspace : Workspace) : Prop where
  sound : workspace.Sound
  housed : ∀ id, (workspace.buffer id).Housed

theorem Orderly.standing {workspace : Workspace} (orderly : workspace.Orderly) :
    workspace.Standing :=
  ⟨orderly.sound.fits, orderly.housed, fun id => (orderly.sound.settled id ⟨0⟩).held⟩

theorem orderly_empty (machine : Machine) : (Workspace.empty machine).Orderly :=
  ⟨sound_empty machine, fun _ => .of_empty Layout.isRead_byteLayout rfl⟩

/-- The buffer is the same, and so are the bytes of its block. -/
structure Undisturbed (before after : Workspace) (id : BufferId) : Prop where
  buffer_eq : after.buffer id = before.buffer id
  byteAt_eq : ∀ place, (before.buffer id).byteAt after.memory place =
    (before.buffer id).byteAt before.memory place

namespace Undisturbed

theorem refl (workspace : Workspace) (id : BufferId) : Undisturbed workspace workspace id :=
  ⟨rfl, fun _ => rfl⟩

theorem trans (left : Undisturbed first second id) (right : Undisturbed second third id) :
    Undisturbed first third id := by
  refine ⟨right.buffer_eq.trans left.buffer_eq, ?_⟩
  intro place
  have later := right.byteAt_eq place
  rw [left.buffer_eq] at later
  exact later.trans (left.byteAt_eq place)

end Undisturbed

/-- The buffers that there were, other than the targets, are undisturbed. -/
structure Leaves (targets : List BufferId) (before after : Workspace) : Prop where
  orderly : after.Orderly
  size_le : before.buffers.size ≤ after.buffers.size
  others : ∀ id, id.index < before.buffers.size → id ∉ targets → Undisturbed before after id

namespace Leaves

theorem refl (targets : List BufferId) (orderly : first.Orderly) : Leaves targets first first :=
  ⟨orderly, Nat.le_refl _, fun id _ _ => .refl first id⟩

/-- What the second action is directed at is a target of the whole or new to the first workspace. -/
theorem trans (left : Leaves targets first second) (right : Leaves more second third)
    (within : ∀ id ∈ more, id.index < first.buffers.size → id ∈ targets) :
    Leaves targets first third := by
  refine ⟨right.orderly, Nat.le_trans left.size_le right.size_le, ?_⟩
  intro id known other
  refine (left.others id known other).trans (right.others id ?_ ?_)
  · exact Nat.lt_of_lt_of_le known left.size_le
  · exact fun member => other (within id member known)

theorem again (left : Leaves targets first second) (right : Leaves targets second third) :
    Leaves targets first third :=
  left.trans right fun _ member _ => member

theorem mono (leaves : Leaves more first second)
    (within : ∀ id ∈ more, id.index < first.buffers.size → id ∈ targets) :
    Leaves targets first second :=
  ⟨leaves.orderly, leaves.size_le, fun id known other =>
    leaves.others id known fun member => other (within id member known)⟩

theorem of_memory (orderly : Orderly ⟨memory, buffers⟩) (sound : Sound ⟨after, buffers⟩)
    (same : ∀ id place, ((Workspace.mk memory buffers).buffer id).byteAt after place =
      ((Workspace.mk memory buffers).buffer id).byteAt memory place) :
    Leaves targets ⟨memory, buffers⟩ ⟨after, buffers⟩ :=
  ⟨⟨sound, orderly.housed⟩, Nat.le_refl _, fun id _ _ => ⟨rfl, same id⟩⟩

theorem of_untouched (orderly : Orderly ⟨memory, buffers⟩)
    (changed : Memory.ChangesWithin (fun _ _ => False) memory after) :
    Leaves targets ⟨memory, buffers⟩ ⟨after, buffers⟩ :=
  of_memory orderly (orderly.sound.exchanged changed (Equiv.refl _) fun _ => rfl)
    (orderly.sound.byteAt_eq changed)

theorem of_replaced {buffer : Buffer} (orderly : first.Orderly)
    (replaced : Replaced id buffer first second) (housed : (second.buffer id).Housed)
    (size_le : first.buffers.size ≤ second.buffers.size) : Leaves [id] first second := by
  refine ⟨⟨replaced.sound orderly.sound, ?_⟩, size_le, ?_⟩
  · intro other
    by_cases same : other = id
    · rw [same]
      exact housed
    · rw [replaced.others other same]
      exact orderly.housed other
  · intro other _ different
    have different := List.ne_of_not_mem_cons different
    exact ⟨replaced.others other different, replaced.byteAt_eq orderly.sound different⟩

end Leaves

/-! ## One buffer -/

/-- A buffer became another one. Where there is no buffer of the name, nothing is kept of it. -/
theorem leaves_setIfInBounds {later : Buffer} (orderly : Orderly ⟨memory, buffers⟩)
    (confined :
      Buffer.Confined True ((Workspace.mk memory buffers).buffer id) memory later after) :
    Leaves [id] ⟨memory, buffers⟩ ⟨after, buffers.setIfInBounds id.index later⟩ := by
  have size_le : buffers.size ≤ (buffers.setIfInBounds id.index later).size := by simp
  by_cases inside : id.index < buffers.size
  · have self := buffer_setIfInBounds_self inside later after
    refine .of_replaced orderly ⟨?_, rfl, ?_⟩ ?_ size_le
    · intro other different
      exact buffer_setIfInBounds_other different buffers later after memory
    · rw [self]
      exact confined.own trivial
    · rw [self]
      exact confined.housed
  · have unknown := Nat.le_of_not_lt inside
    have absent : (Workspace.mk memory buffers).buffer id = absentBuffer := buffer_eq_absent unknown
    rw [absent] at confined
    have still : (Workspace.mk after buffers).buffer id = absentBuffer := buffer_eq_absent unknown
    have given_up := confined.abandoned rfl (.of_empty Layout.isRead_byteLayout rfl)
    have replaced : Replaced id absentBuffer ⟨memory, buffers⟩ ⟨after, buffers⟩ := by
      refine ⟨fun _ _ => rfl, by rw [absent], ?_⟩
      rw [still]
      exact given_up.own trivial
    rw [Array.setIfInBounds_eq_of_size_le unknown]
    refine .of_replaced orderly replaced ?_ (Nat.le_refl _)
    rw [still]
    exact given_up.housed

theorem leaves_push {blank made : Buffer} (orderly : Orderly ⟨memory, buffers⟩)
    (block : blank.block = none) (confined : Buffer.Confined True blank memory made after) :
    Leaves [] ⟨memory, buffers⟩ ⟨after, buffers.push made⟩ := by
  have self := buffer_push_self buffers made after
  have absent : (Workspace.mk memory buffers).buffer ⟨buffers.size⟩ = absentBuffer :=
    buffer_eq_absent (Nat.le_refl _)
  have replaced : Replaced ⟨buffers.size⟩ blank ⟨memory, buffers⟩ ⟨after, buffers.push made⟩ := by
    refine ⟨fun other different => buffer_push_other different made after memory, ?_, ?_⟩
    · rw [block, absent]
      rfl
    · rw [self]
      exact confined.own trivial
  have leaves : Leaves [⟨buffers.size⟩] ⟨memory, buffers⟩ ⟨after, buffers.push made⟩ := by
    refine .of_replaced orderly replaced ?_ (by simp)
    rw [self]
    exact confined.housed
  refine leaves.mono ?_
  intro id member known
  cases List.mem_singleton.mp member
  exact absurd known (Nat.lt_irrefl _)

theorem leaves_unpushed {blank : Buffer} (orderly : Orderly ⟨memory, buffers⟩)
    (block : blank.block = none) (confined : Buffer.Confined True blank memory blank after) :
    Leaves [] ⟨memory, buffers⟩ ⟨after, buffers⟩ := by
  have pushed := leaves_push orderly block confined
  have dropped : ∀ id : BufferId, ((Workspace.mk after buffers).buffer id).block =
      ((Workspace.mk after (buffers.push blank)).buffer id).block := by
    intro id
    by_cases new : id = ⟨buffers.size⟩
    · have absent : (Workspace.mk after buffers).buffer ⟨buffers.size⟩ = absentBuffer :=
        buffer_eq_absent (Nat.le_refl _)
      rw [new, buffer_push_self, block, absent]
      rfl
    · rw [buffer_push_other new blank after after]
  have sound : Sound ⟨after, buffers⟩ :=
    pushed.orderly.sound.exchanged (.refl _ after) (Equiv.refl _) dropped
  refine ⟨⟨sound, orderly.housed⟩, Nat.le_refl _, ?_⟩
  intro id known other
  exact ⟨rfl, (pushed.others id known other).byteAt_eq⟩

theorem leaves_taken (orderly : Orderly ⟨memory, buffers⟩)
    (changed : Memory.ChangesWithin (fun _ _ => False) memory after) (id : BufferId) :
    Leaves [id] ⟨memory, buffers⟩ ⟨after, (buffers.setIfInBounds id.index
        ((Workspace.mk memory buffers).buffer id).emptied).push
          ((Workspace.mk memory buffers).buffer id)⟩ := by
  by_cases inside : id.index < buffers.size
  · have taken := buffer_taken memory after inside
      ((Workspace.mk memory buffers).buffer id).emptied ((Workspace.mk memory buffers).buffer id)
    refine ⟨⟨sound_taken orderly.sound inside changed, ?_⟩, by simp, ?_⟩
    · intro other
      rw [taken]
      split
      · exact orderly.housed id
      · split
        · exact Buffer.housed_emptied (orderly.housed id).read
        · exact orderly.housed other
    · intro other known different
      have different := List.ne_of_not_mem_cons different
      have old : other ≠ ⟨buffers.size⟩ := by
        rintro rfl
        exact Nat.lt_irrefl _ known
      refine ⟨?_, orderly.sound.byteAt_eq changed other⟩
      rw [taken, if_neg old, if_neg different]
  · have unknown := Nat.le_of_not_lt inside
    have absent : (Workspace.mk memory buffers).buffer id = absentBuffer := buffer_eq_absent unknown
    rw [absent, Array.setIfInBounds_eq_of_size_le unknown]
    exact (leaves_push orderly rfl
      (.of_untouched (.of_empty Layout.isRead_byteLayout rfl) changed)).mono (by simp)

/-! ## Actions -/

/-- The workspace stands afterwards. Where `sure` holds and blocks lay apart, all buffers but the
targets were left alone. -/
structure Passes (sure : Prop) (targets : List BufferId) (before after : Workspace) : Prop where
  upholds : Upholds before after
  leaves : sure → before.Orderly → Leaves targets before after

namespace Passes

theorem refl (targets : List BufferId) (standing : first.Standing) :
    Passes sure targets first first :=
  ⟨.refl standing, fun _ orderly => .refl targets orderly⟩

theorem trans (left : Passes sure targets first second) (right : Passes sure more second third)
    (within : ∀ id ∈ more, id.index < first.buffers.size → id ∈ targets) :
    Passes sure targets first third := by
  refine ⟨left.upholds.trans right.upholds, ?_⟩
  intro holds orderly
  have once := left.leaves holds orderly
  exact once.trans (right.leaves holds once.orderly) within

theorem again (left : Passes sure targets first second) (right : Passes sure targets second third) :
    Passes sure targets first third :=
  left.trans right fun _ member _ => member

theorem mono (passes : Passes sure more first second)
    (within : ∀ id ∈ more, id.index < first.buffers.size → id ∈ targets) :
    Passes sure targets first second :=
  ⟨passes.upholds, fun holds orderly => (passes.leaves holds orderly).mono within⟩

theorem standing (passes : Passes sure targets first second) : second.Standing :=
  passes.upholds.standing

theorem of_untouched (standing : Standing ⟨memory, buffers⟩)
    (changed : Memory.ChangesWithin (fun _ _ => False) memory after) :
    Passes sure targets ⟨memory, buffers⟩ ⟨after, buffers⟩ :=
  ⟨upholds_of_changes standing changed, fun _ orderly => .of_untouched orderly changed⟩

end Passes

theorem passes_setIfInBounds {later : Buffer} (standing : Standing ⟨memory, buffers⟩)
    (confined :
      Buffer.Confined sure ((Workspace.mk memory buffers).buffer id) memory later after) :
    Passes sure [id] ⟨memory, buffers⟩ ⟨after, buffers.setIfInBounds id.index later⟩ :=
  ⟨upholds_setIfInBounds standing confined, fun holds orderly =>
    leaves_setIfInBounds orderly (confined.weaken fun _ => holds)⟩

theorem passes_push {blank made : Buffer} (standing : Standing ⟨memory, buffers⟩)
    (block : blank.block = none) (confined : Buffer.Confined sure blank memory made after) :
    Passes sure [] ⟨memory, buffers⟩ ⟨after, buffers.push made⟩ :=
  ⟨upholds_push standing block confined, fun holds orderly =>
    leaves_push orderly block (confined.weaken fun _ => holds)⟩

theorem passes_unpushed {blank : Buffer} (standing : Standing ⟨memory, buffers⟩)
    (block : blank.block = none) (confined : Buffer.Confined sure blank memory blank after) :
    Passes sure [] ⟨memory, buffers⟩ ⟨after, buffers⟩ :=
  ⟨upholds_of_changes standing confined.advance.changed, fun holds orderly =>
    leaves_unpushed orderly block (confined.weaken fun _ => holds)⟩

def Secures {α : Type} (sure : Prop) (targets : List BufferId) (before : Workspace)
    (action : WorkspaceM α) : Prop :=
  Passes sure targets before (final (action before))

/-- Whatever the action gives, it leaves all buffers alone but its targets. -/
def Spares {α : Type} (targets : List BufferId) (before : Workspace) (action : WorkspaceM α) :
    Prop :=
  Leaves targets before (final (action before))

section Actions

variable {α β : Type} {action : WorkspaceM α}

theorem Secures.bind {next : α → WorkspaceM β} (secures : Secures sure targets first action)
    (rest : ∀ result between, action first = .ok result between →
      Passes sure targets first between → Passes sure targets first (final (next result between))) :
    Secures sure targets first (action >>= next) := by
  unfold Secures at secures ⊢
  rw [run_bind]
  cases ran : action first with
  | error fault between =>
      rw [ran] at secures
      exact secures
  | ok result between =>
      rw [ran] at secures
      exact rest result between ran secures

/-- What is made of the result of an action does not matter to what the action leaves. -/
theorem Secures.map (secures : Secures sure targets first action) (change : α → β) :
    Secures sure targets first (change <$> action) := by
  unfold Secures
  rw [final_map]
  exact secures

theorem secures_onBuffer {operation : BufferM α} (standing : first.Standing)
    (confines : Buffer.Confines sure (first.buffer id) first.memory operation) :
    Secures sure [id] first (WorkspaceM.onBuffer id operation) := by
  obtain ⟨memory, buffers⟩ := first
  unfold Buffer.Confines Workspace.buffer at confines
  unfold Secures WorkspaceM.onBuffer
  dsimp only at confines ⊢
  cases ran : operation ⟨buffers.getD id.index absentBuffer, memory⟩ with
  | ok result state =>
      rw [ran] at confines
      exact passes_setIfInBounds standing confines
  | error fault state =>
      rw [ran] at confines
      exact passes_setIfInBounds standing confines

theorem secures_addBuffer {make : MemoryM Buffer} {blank : Buffer} (standing : first.Standing)
    (block : blank.block = none)
    (replaces : Buffer.Replaces sure blank first.memory (make first.memory)) :
    Secures sure [] first (WorkspaceM.addBuffer make) := by
  obtain ⟨memory, buffers⟩ := first
  simp only [Secures, WorkspaceM.addBuffer, run_bind, WorkspaceM.onMemory]
  cases ran : make memory with
  | ok made after =>
      rw [ran] at replaces
      exact passes_push standing block replaces
  | error fault after =>
      rw [ran] at replaces
      exact passes_unpushed standing block replaces

/-! ## Making buffers -/

theorem secures_newBuffer (standing : first.Standing) (allocator : AllocatorId) (pattern : String)
    (inlineCapacity : Int) :
    Secures sure [] first (WorkspaceM.newBuffer allocator pattern inlineCapacity) := by
  unfold WorkspaceM.newBuffer
  cases read : Layout.ofPattern? pattern with
  | none => exact .refl [] standing
  | some layout =>
      exact secures_addBuffer standing rfl (Buffer.replaces_spawn
        ⟨allocator, .items, layout, inlineCapacity, 0, none, false⟩ (standing.fits _)
        ⟨pattern, read⟩)

theorem secures_newText (standing : first.Standing) (allocator : AllocatorId) (inlineCapacity : Int) :
    Secures sure [] first (WorkspaceM.newText allocator inlineCapacity) :=
  secures_addBuffer standing rfl (Buffer.replaces_spawn
    ⟨allocator, .text, Layout.byteLayout, inlineCapacity, 0, none, false⟩ (standing.fits _)
    Layout.isRead_byteLayout)

theorem secures_textOfBytes (standing : first.Standing) (allocator : AllocatorId) (bytes : Bytes) :
    Secures sure [] first (WorkspaceM.textOfBytes allocator bytes) :=
  secures_addBuffer standing rfl (Buffer.replaces_ofBytes (standing.fits _) bytes)

theorem secures_copy (standing : first.Standing) (id : BufferId) :
    Secures sure [] first (WorkspaceM.copy id) := by
  unfold Secures
  rw [copy_eq]
  exact secures_addBuffer standing rfl
    (Buffer.replaces_copy (standing.fits _) (standing.housed id))

theorem take_cases (memory : Memory) (buffers : Array Buffer) (id : BufferId) :
    ∃ after, Memory.ChangesWithin (fun _ _ => False) memory after ∧ after.calls = memory.calls ∧
      ((∃ fault, WorkspaceM.take id ⟨memory, buffers⟩ = .error fault ⟨after, buffers⟩) ∨
        WorkspaceM.take id ⟨memory, buffers⟩ =
          .ok ⟨buffers.size⟩ ⟨after, (buffers.setIfInBounds id.index
            ((Workspace.mk memory buffers).buffer id).emptied).push
              ((Workspace.mk memory buffers).buffer id)⟩) := by
  have same := setIfInBounds_buffer ⟨memory, buffers⟩ id
  obtain ⟨after, changed, uncalled, ⟨fault, refused⟩ | taken⟩ :=
    Buffer.take_cases ((Workspace.mk memory buffers).buffer id) memory
  · unfold Workspace.buffer at refused same
    refine ⟨after, changed, uncalled, .inl ⟨fault, ?_⟩⟩
    simp only [WorkspaceM.take, run_bind, WorkspaceM.onBuffer, BufferM.take, BufferM.exchange,
      refused, same]
  · unfold Workspace.buffer at taken ⊢
    have size : (buffers.setIfInBounds id.index
        (buffers.getD id.index absentBuffer).emptied).size = buffers.size :=
      Array.size_setIfInBounds
    refine ⟨after, changed, uncalled, .inr ?_⟩
    simp only [WorkspaceM.take, run_bind, WorkspaceM.onBuffer, BufferM.take, BufferM.exchange,
      taken]
    rw [← size]
    rfl

theorem secures_take (standing : first.Standing) (id : BufferId) :
    Secures sure [id] first (WorkspaceM.take id) := by
  obtain ⟨memory, buffers⟩ := first
  unfold Secures
  obtain ⟨after, changed, -, ⟨fault, refused⟩ | taken⟩ := take_cases memory buffers id
  · rw [refused]
    exact .of_untouched standing changed
  · rw [taken]
    exact ⟨upholds_taken standing changed id, fun _ orderly => leaves_taken orderly changed id⟩

/-! ## Allocators -/

theorem secures_newHeap (standing : first.Standing) :
    Secures sure [] first (WorkspaceM.onMemory Memory.newHeap) := by
  obtain ⟨memory, buffers⟩ := first
  exact .of_untouched standing (changesWithin_newHeap memory)

theorem secures_newArena (standing : first.Standing) (capacity : Int) :
    Secures sure [] first (WorkspaceM.onMemory (Memory.newArena capacity)) := by
  obtain ⟨memory, buffers⟩ := first
  unfold Secures WorkspaceM.onMemory
  dsimp only
  by_cases negative : capacity < 0
  · simp only [Memory.newArena, run_bind, if_pos negative, run_throw]
    exact .refl [] standing
  · rcases Memory.newArena_cases negative memory with ⟨fault, refused, -⟩ | supplied
    · rw [refused]
      exact .refl [] standing
    · rw [supplied]
      refine ⟨upholds_withArena standing _, fun _ orderly => ?_⟩
      exact .of_memory orderly (sound_withArena orderly.sound _) (byteAt_withArena orderly.sound _)

theorem changesWithin_closed {arena : Arena} {id : AllocatorId}
    (known : memory.allocator id = .arena arena) :
    Memory.ChangesWithin (fun _ _ => False) memory
      (memory.setAllocator id (.arena ⟨none, 0⟩)) := by
  have open_arena : ∀ other region used,
      (memory.setAllocator id (.arena ⟨none, 0⟩)).allocator other = .arena ⟨some region, used⟩ →
        memory.allocator other = .arena ⟨some region, used⟩ := by
    intro other region used found
    by_cases same : other = id
    · rw [same, Memory.allocator_setAllocator_self known] at found
      cases found
    · rwa [Memory.allocator_setAllocator_other same] at found
  refine ⟨Nat.le_refl _, fun _ _ => rfl, ?_, ?_, fun _ _ _ _ => rfl⟩
  · rintro other storage index ⟨region, used, found, rest⟩
    exact ⟨region, used, open_arena other region used found, rest⟩
  · intro other fits region used found
    obtain ⟨held, bound⟩ := fits region used (open_arena other region used found)
    exact ⟨⟨held.storage_lt, held.stop_le⟩, bound⟩

theorem secures_close (standing : first.Standing) (id : AllocatorId) :
    Secures sure [] first (WorkspaceM.onMemory (Memory.close id)) := by
  obtain ⟨memory, buffers⟩ := first
  unfold Secures WorkspaceM.onMemory Memory.close
  dsimp only
  cases known : memory.allocator id with
  | heap => exact .refl [] standing
  | arena arena => exact .of_untouched standing (changesWithin_closed known)

/-! ## Joining and cutting -/

theorem secures_appendBytes (standing : first.Standing) (id : BufferId) (bytes : Bytes) :
    Secures sure [id] first (WorkspaceM.onBuffer id (BufferM.appendBytes bytes)) :=
  secures_onBuffer standing
    (Buffer.confines_appendBytes (standing.fits _) (standing.housed id) bytes)

theorem secures_appendParts (standing : first.Standing) (id : BufferId) (separator : Bytes)
    (parts : List Bytes) : Secures sure [id] first (WorkspaceM.appendParts id separator parts) := by
  induction parts generalizing first with
  | nil => exact .refl [id] standing
  | cons part rest ih =>
      cases rest with
      | nil => exact secures_appendBytes standing id part
      | cons next rest =>
          unfold WorkspaceM.appendParts
          refine (secures_appendBytes standing id part).bind ?_
          intro _ second _ passes
          refine passes.again ((secures_appendBytes passes.standing id separator).bind ?_)
          intro _ third _ separated
          exact separated.again (ih separated.standing)

theorem newText_eq_ok {allocator : AllocatorId} {inlineCapacity : Int}
    (made : WorkspaceM.newText allocator inlineCapacity first = .ok id second) :
    id = ⟨first.buffers.size⟩ ∧ first.buffers.size < second.buffers.size := by
  obtain ⟨memory, buffers⟩ := first
  obtain ⟨text, between, ran, added⟩ := bind_eq_ok made
  unfold WorkspaceM.onMemory at ran
  dsimp only at ran
  split at ran
  · cases ran
    cases added
    exact ⟨rfl, by simp⟩
  · cases ran

/-- The joined text is new, so what is appended to it reaches nothing that there was. -/
theorem secures_concat (standing : first.Standing) (allocator : AllocatorId) (separator : Bytes)
    (parts : List Bytes) : Secures sure [] first (WorkspaceM.concat allocator separator parts) := by
  unfold WorkspaceM.concat
  refine (secures_newText standing allocator 0).bind ?_
  intro id second made passes
  have new : ∀ other ∈ [id], other.index < first.buffers.size → other ∈ ([] : List BufferId) := by
    intro other member known
    cases List.mem_singleton.mp member
    rw [(newText_eq_ok made).1] at known
    exact absurd known (Nat.lt_irrefl _)
  have reserves : Secures sure [id] second
      (WorkspaceM.onBuffer id (BufferM.reserve (WorkspaceM.joinedLength separator parts))) :=
    secures_onBuffer passes.standing
      (Buffer.confines_reserve (passes.standing.fits _) (passes.standing.housed id) _)
  refine passes.trans (reserves.bind ?_) new
  intro _ third _ reserved
  refine reserved.again ((secures_appendParts reserved.standing id separator parts).bind ?_)
  intro _ fourth _ appended
  exact appended

theorem secures_textsOf (standing : first.Standing) (allocator : AllocatorId) (pieces : List Bytes) :
    Secures sure [] first (WorkspaceM.textsOf allocator pieces) := by
  unfold WorkspaceM.textsOf
  induction pieces generalizing first with
  | nil => exact .refl [] standing
  | cons piece rest ih =>
      rw [List.mapM_cons]
      refine (secures_textOfBytes standing allocator piece).bind ?_
      intro _ second _ passes
      exact passes.again ((ih passes.standing).bind fun _ _ _ done => done)

/-! ## Tokens -/

theorem secures_release (standing : first.Standing) (id : BufferId) :
    Secures sure [id] first (WorkspaceM.onBuffer id BufferM.release) :=
  secures_onBuffer standing (Buffer.confines_release (standing.housed id))

theorem drop_eq_final (allocator : AllocatorId) (id : BufferId) (workspace : Workspace) :
    (payloadStore allocator).drop id workspace =
      final (WorkspaceM.onBuffer id BufferM.release workspace) := by
  unfold payloadStore
  dsimp only
  cases WorkspaceM.onBuffer id BufferM.release workspace <;> rfl

theorem hold_eq_final (allocator : AllocatorId) (bytes : Bytes) (workspace : Workspace) :
    ((payloadStore allocator).hold bytes workspace).2 =
      final (WorkspaceM.textOfBytes allocator bytes workspace) := by
  unfold payloadStore
  dsimp only
  cases WorkspaceM.textOfBytes allocator bytes workspace <;> rfl

theorem passes_drop (standing : first.Standing) (allocator : AllocatorId) (id : BufferId) :
    Passes sure [id] first ((payloadStore allocator).drop id first) := by
  rw [drop_eq_final]
  exact secures_release standing id

theorem passes_drops (standing : first.Standing) (allocator : AllocatorId) (names : List BufferId) :
    Passes sure names first
      (names.foldl (fun workspace name => (payloadStore allocator).drop name workspace) first) := by
  induction names generalizing first with
  | nil => exact .refl [] standing
  | cons name rest ih =>
      have dropped : Passes sure [name] first ((payloadStore allocator).drop name first) :=
        passes_drop standing allocator name
      refine (dropped.mono ?_).again ((ih dropped.standing).mono ?_)
      · intro id member _
        cases List.mem_singleton.mp member
        exact List.mem_cons_self
      · exact fun id member _ => List.mem_cons_of_mem name member

theorem passes_intern (standing : first.Standing) (allocator : AllocatorId)
    (tokens : List (Token Bytes)) :
    Passes sure [] first ((payloadStore allocator).intern [] tokens first).2.2 := by
  refine intern_keeps ?_ [] tokens (.refl [] standing)
  intro bytes between passes
  rw [hold_eq_final]
  exact passes.again (secures_textOfBytes passes.standing allocator bytes)

/-- The payloads of a tokenization are new. So it reaches nothing that there was, also where it
gives them back. -/
theorem secures_tokenize (standing : first.Standing) (lexer : Lexer) :
    Secures sure [] first (WorkspaceM.tokenize lexer) := by
  have interned : Passes sure [] first ((payloadStore lexer.allocator).intern []
      (Scan.run lexer.rules lexer.source).tokens first).2.2 :=
    passes_intern standing lexer.allocator _
  unfold Secures WorkspaceM.tokenize PayloadStore.tokenize
  dsimp only
  cases ran : (payloadStore lexer.allocator).intern []
      (Scan.run lexer.rules lexer.source).tokens first with
  | mk tokens rest =>
      obtain ⟨fault?, filled⟩ := rest
      obtain ⟨texts, -, names, -⟩ :=
        interned_of_intern (held_of_payloadStore lexer.allocator) ran
      rw [ran] at interned
      have released : Passes sure [] first ((payloadStore lexer.allocator).release tokens filled) := by
        refine interned.trans (passes_drops interned.standing lexer.allocator _) ?_
        intro id member known
        rw [names] at member
        obtain ⟨index, inside, rfl⟩ := List.mem_map.mp member
        exact absurd (List.mem_range'_1.mp inside).1 (Nat.not_le_of_lt known)
      cases fault? with
      | some fault => exact released
      | none =>
          cases (Scan.run lexer.rules lexer.source).ending with
          | complete => exact interned
          | failed offset problem => exact released

theorem secures_releaseTokens (standing : first.Standing) (tokens : List (Token BufferId)) :
    Secures sure (tokens.filterMap Token.payload?) first (WorkspaceM.releaseTokens tokens) := by
  unfold Secures
  rw [releaseTokens_eq ⟨0⟩]
  exact passes_drops standing ⟨0⟩ _

end Actions

end LexKit.Workspace
