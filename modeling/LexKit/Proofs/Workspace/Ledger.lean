import LexKit.Proofs.Buffer.Trading
import LexKit.Proofs.Workspace.Interference
import Mathlib.Data.List.Perm.Basic

/-!
# The ledger of a workspace

At every moment of a run, the blocks that allocators lent and did not get back are those that
buffers own, each of them one. A step carries the balance over, whatever it gives, and a run does by
induction. So no block is given back that is not owed, and a run that ends with all buffers released
has repaid each loan once.
-/

set_option autoImplicit false

namespace LexKit

def WorkspaceCommand.isKnown (workspace : Workspace) (command : WorkspaceCommand) : Bool :=
  command.targets.all fun id => decide (id.index < workspace.buffers.size)

namespace Workspace

open Running

variable {memory after : Memory} {buffers : Array Buffer} {workspace first second third : Workspace}
  {id : BufferId}

/-- Throughout the run, what a command may change are buffers that there are. -/
def knowsAll (workspace : Workspace) : List WorkspaceCommand → Bool
  | [] => true
  | command :: rest =>
      command.isKnown workspace && knowsAll (final (WorkspaceM.follow command workspace)) rest

/-! ## Balances of buffers -/

/-- The calls since `base` balance with what the buffers own, and no inline block was lent: none of
these buffers, and none of the further ones. -/
def Balances (base : List AllocatorCall) (further : List Extent) (memory : Memory)
    (buffers : List Buffer) : Prop :=
  Memory.Balanced base (buffers.filterMap Buffer.owned?)
    (buffers.filterMap Buffer.inline? ++ further) memory

namespace Balances

variable {base : List AllocatorCall} {further : List Extent} {buffer later : Buffer}
  {listed others : List Buffer}

theorem perm (balances : Balances base further memory listed) (same : listed.Perm others) :
    Balances base further memory others := by
  obtain ⟨calls, booked⟩ := balances
  exact ⟨calls, (booked.reordered (same.filterMap _)).subset
    ((same.filterMap _).append_right further).symm.subset⟩

private theorem cons_iff :
    Balances base further memory (buffer :: others) ↔
      Memory.Balanced base (buffer.owned?.toList ++ others.filterMap Buffer.owned?)
        (buffer.inline?.toList ++ (others.filterMap Buffer.inline? ++ further)) memory := by
  unfold Balances
  rw [List.filterMap_cons, List.filterMap_cons]
  cases buffer.owned? <;> cases buffer.inline? <;> exact Iff.rfl

theorem trade (balances : Balances base further memory (buffer :: others))
    (trades : Buffer.Trades buffer memory later after) :
    Balances base further after (later :: others) :=
  cons_iff.mpr (trades base _ _ (cons_iff.mp balances))

theorem cons_of_no_block (absent : buffer.block = none) :
    Balances base further memory (buffer :: others) ↔ Balances base further memory others := by
  rw [cons_iff, Buffer.owned?_of_no_block absent, Buffer.inline?_of_no_block absent]
  exact Iff.rfl

end Balances

/-- The balance was carried over. -/
structure Carried (before after : Workspace) : Prop where
  size_le : before.buffers.size ≤ after.buffers.size
  balances : ∀ base further, Balances base further before.memory before.buffers.toList →
    Balances base further after.memory after.buffers.toList

namespace Carried

theorem refl (workspace : Workspace) : Carried workspace workspace :=
  ⟨Nat.le_refl _, fun _ _ balances => balances⟩

theorem trans (left : Carried first second) (right : Carried second third) :
    Carried first third :=
  ⟨Nat.le_trans left.size_le right.size_le,
    fun base further balances => right.balances base further (left.balances base further balances)⟩

theorem of_quiet (quiet : Memory.Quiet memory after) (buffers : Array Buffer) :
    Carried ⟨memory, buffers⟩ ⟨after, buffers⟩ :=
  ⟨Nat.le_refl _, fun _ _ ⟨calls, booked⟩ => ⟨calls, booked.quiet quiet⟩⟩

end Carried

/-! ## One buffer -/

private theorem toList_perm (inside : id.index < buffers.size) (memory : Memory) :
    ((Workspace.mk memory buffers).buffer id :: buffers.toList.eraseIdx id.index).Perm
      buffers.toList := by
  have found : (Workspace.mk memory buffers).buffer id = buffers.toList[id.index] := by
    simp [Workspace.buffer, inside]
  rw [found]
  exact List.getElem_cons_eraseIdx_perm _

private theorem setIfInBounds_perm (inside : id.index < buffers.size) (later : Buffer) :
    (buffers.setIfInBounds id.index later).toList.Perm
      (later :: buffers.toList.eraseIdx id.index) := by
  rw [Array.toList_setIfInBounds]
  exact List.set_perm_cons_eraseIdx (by simpa using inside) later

private theorem push_perm (buffers : Array Buffer) (made : Buffer) :
    (buffers.push made).toList.Perm (made :: buffers.toList) := by
  rw [Array.toList_push]
  exact List.perm_append_comm

theorem carried_setIfInBounds {later : Buffer} (inside : id.index < buffers.size)
    (trades : Buffer.Trades ((Workspace.mk memory buffers).buffer id) memory later after) :
    Carried ⟨memory, buffers⟩ ⟨after, buffers.setIfInBounds id.index later⟩ := by
  refine ⟨by simp, ?_⟩
  intro base further balances
  exact ((balances.perm (toList_perm inside memory).symm).trade trades).perm
    (setIfInBounds_perm inside later).symm

theorem carried_push {blank made : Buffer} (block : blank.block = none)
    (trades : Buffer.Trades blank memory made after) :
    Carried ⟨memory, buffers⟩ ⟨after, buffers.push made⟩ := by
  refine ⟨by simp, ?_⟩
  intro base further balances
  exact (((Balances.cons_of_no_block block).mpr balances).trade trades).perm
    (push_perm buffers made).symm

theorem carried_unpushed {blank left : Buffer} (block : blank.block = none)
    (trades : Buffer.Trades blank memory left after) (nothing : left.block = none) :
    Carried ⟨memory, buffers⟩ ⟨after, buffers⟩ :=
  ⟨Nat.le_refl _, fun _ _ balances => (Balances.cons_of_no_block nothing).mp
    (((Balances.cons_of_no_block block).mpr balances).trade trades)⟩

theorem carried_taken (inside : id.index < buffers.size) (quiet : Memory.Quiet memory after) :
    Carried ⟨memory, buffers⟩ ⟨after, (buffers.setIfInBounds id.index
        ((Workspace.mk memory buffers).buffer id).emptied).push
          ((Workspace.mk memory buffers).buffer id)⟩ := by
  refine (Carried.of_quiet quiet buffers).trans ⟨by simp, ?_⟩
  intro base further balances
  have emptied := (setIfInBounds_perm inside ((Workspace.mk memory buffers).buffer id).emptied)
  have moved := (push_perm _ ((Workspace.mk memory buffers).buffer id)).trans (emptied.cons _)
  refine Balances.perm ?_ (moved.trans (.swap _ _ _)).symm
  exact (Balances.cons_of_no_block rfl).mpr (balances.perm (toList_perm inside memory).symm)

/-! ## Actions -/

def Carries {α : Type} (before : Workspace) (action : WorkspaceM α) : Prop :=
  Carried before (final (action before))

section Actions

variable {α β : Type} {action : WorkspaceM α}

theorem Carries.bind {next : α → WorkspaceM β} (carries : Carries first action)
    (rest : ∀ result between, action first = .ok result between → Carried first between →
      Carries between (next result)) : Carries first (action >>= next) := by
  unfold Carries at carries ⊢
  rw [run_bind]
  cases ran : action first with
  | error fault between =>
      rw [ran] at carries
      exact carries
  | ok result between =>
      rw [ran] at carries
      exact carries.trans (rest result between ran carries)

/-- What is made of the result of an action does not touch the balance. -/
theorem Carries.map (carries : Carries first action) (change : α → β) :
    Carries first (change <$> action) := by
  unfold Carries
  rw [final_map]
  exact carries

theorem carries_onBuffer {operation : BufferM α} (inside : id.index < first.buffers.size)
    (honors : Buffer.Honors (first.buffer id) first.memory operation) :
    Carries first (WorkspaceM.onBuffer id operation) := by
  obtain ⟨memory, buffers⟩ := first
  unfold Buffer.Honors Workspace.buffer at honors
  unfold Carries WorkspaceM.onBuffer
  dsimp only at honors ⊢
  cases ran : operation ⟨buffers.getD id.index absentBuffer, memory⟩ with
  | ok result state =>
      rw [ran] at honors
      exact carried_setIfInBounds inside honors
  | error fault state =>
      rw [ran] at honors
      exact carried_setIfInBounds inside honors

theorem carries_addBuffer {make : MemoryM Buffer} {blank : Buffer} (block : blank.block = none)
    (deals : Buffer.Deals blank first.memory (make first.memory)) :
    Carries first (WorkspaceM.addBuffer make) := by
  obtain ⟨memory, buffers⟩ := first
  simp only [Carries, WorkspaceM.addBuffer, run_bind, WorkspaceM.onMemory]
  cases ran : make memory with
  | ok made after =>
      rw [ran] at deals
      exact carried_push block deals
  | error fault after =>
      rw [ran] at deals
      exact carried_unpushed block deals block

theorem carries_asked {operation : BufferM α} {found : Except Fault α}
    (ran : operation ⟨workspace.buffer id, workspace.memory⟩ =
      answer found ⟨workspace.buffer id, workspace.memory⟩) :
    Carries workspace (WorkspaceM.onBuffer id operation) := by
  unfold Carries
  rw [onBuffer_answer ran, final_answer]
  exact .refl workspace

/-! ## Making buffers -/

theorem carries_newBuffer (allocator : AllocatorId) (pattern : String) (inlineCapacity : Int) :
    Carries first (WorkspaceM.newBuffer allocator pattern inlineCapacity) := by
  unfold WorkspaceM.newBuffer
  cases Layout.ofPattern? pattern with
  | none => exact .refl first
  | some layout =>
      exact carries_addBuffer rfl (Buffer.deals_spawn
        ⟨allocator, .items, layout, inlineCapacity, 0, none, false⟩ first.memory).1

theorem carries_newText (allocator : AllocatorId) (inlineCapacity : Int) :
    Carries first (WorkspaceM.newText allocator inlineCapacity) :=
  carries_addBuffer rfl (Buffer.deals_spawn
    ⟨allocator, .text, Layout.byteLayout, inlineCapacity, 0, none, false⟩ first.memory).1

theorem carries_textOfBytes (allocator : AllocatorId) (bytes : Bytes) :
    Carries first (WorkspaceM.textOfBytes allocator bytes) :=
  carries_addBuffer rfl (Buffer.deals_ofBytes allocator bytes first.memory)

theorem carries_copy (id : BufferId) : Carries first (WorkspaceM.copy id) := by
  unfold Carries
  rw [copy_eq]
  exact carries_addBuffer rfl (Buffer.deals_copy (first.buffer id) first.memory)

theorem carries_take (inside : id.index < first.buffers.size) :
    Carries first (WorkspaceM.take id) := by
  obtain ⟨memory, buffers⟩ := first
  unfold Carries
  obtain ⟨after, changed, uncalled, ⟨fault, refused⟩ | taken⟩ := take_cases memory buffers id
  · rw [refused]
    exact .of_quiet (changed.quiet uncalled) buffers
  · rw [taken]
    exact carried_taken inside (changed.quiet uncalled)

/-! ## Allocators -/

theorem carries_newHeap : Carries first (WorkspaceM.onMemory Memory.newHeap) :=
  .of_quiet ((changesWithin_newHeap first.memory).quiet rfl) first.buffers

theorem quiet_withArena (memory : Memory) (size : Nat) :
    Memory.Quiet memory (withArena memory size) := by
  refine ⟨rfl, ?_, fun id fits => fits_withArena fits size⟩
  rintro id extent (new | remains)
  · refine .inl (Nat.le_of_succ_le (Nat.le_trans (Nat.le_of_eq ?_) new))
    exact (Memory.size_storages_addStorage memory _).symm
  -- The region of the new arena is a storage that was still to come.
  · rcases Nat.lt_or_ge extent.storage.index memory.storages.size with old | new
    · exact .inr (remaining_withArena remains old)
    · exact .inl new

theorem carries_newArena (capacity : Int) :
    Carries first (WorkspaceM.onMemory (Memory.newArena capacity)) := by
  obtain ⟨memory, buffers⟩ := first
  unfold Carries WorkspaceM.onMemory
  dsimp only
  by_cases negative : capacity < 0
  · simp only [Memory.newArena, run_bind, if_pos negative, run_throw]
    exact .refl _
  · rcases Memory.newArena_cases negative memory with ⟨fault, refused, -⟩ | supplied
    · rw [refused]
      exact .refl _
    · rw [supplied]
      exact .of_quiet (quiet_withArena memory _) buffers

theorem carries_close (id : AllocatorId) :
    Carries first (WorkspaceM.onMemory (Memory.close id)) := by
  obtain ⟨memory, buffers⟩ := first
  unfold Carries WorkspaceM.onMemory Memory.close
  dsimp only
  cases known : memory.allocator id with
  | heap => exact .refl _
  | arena arena => exact .of_quiet ((changesWithin_closed known).quiet rfl) buffers

/-! ## Joining and cutting -/

theorem carries_appendBytes (inside : id.index < first.buffers.size) (bytes : Bytes) :
    Carries first (WorkspaceM.onBuffer id (BufferM.appendBytes bytes)) :=
  carries_onBuffer inside (Buffer.honors_replace (Buffer.deals_appendBytes _ _ bytes))

theorem carries_appendParts (inside : id.index < first.buffers.size) (separator : Bytes)
    (parts : List Bytes) : Carries first (WorkspaceM.appendParts id separator parts) := by
  induction parts generalizing first with
  | nil => exact .refl first
  | cons part rest ih =>
      cases rest with
      | nil => exact carries_appendBytes inside part
      | cons next rest =>
          unfold WorkspaceM.appendParts
          refine (carries_appendBytes inside part).bind ?_
          intro _ second _ appended
          have inside := Nat.lt_of_lt_of_le inside appended.size_le
          refine (carries_appendBytes inside separator).bind ?_
          intro _ third _ separated
          exact ih (Nat.lt_of_lt_of_le inside separated.size_le)

theorem carries_concat (allocator : AllocatorId) (separator : Bytes) (parts : List Bytes) :
    Carries first (WorkspaceM.concat allocator separator parts) := by
  unfold WorkspaceM.concat
  refine (carries_newText allocator 0).bind ?_
  intro id second made _
  obtain ⟨rfl, inside⟩ := newText_eq_ok made
  refine (carries_onBuffer inside (Buffer.honors_replace (Buffer.deals_reserve _ _ _))).bind ?_
  intro _ third _ reserved
  refine (carries_appendParts (Nat.lt_of_lt_of_le inside reserved.size_le) separator parts).bind ?_
  exact fun _ last _ _ => .refl last

theorem carries_textsOf (allocator : AllocatorId) (pieces : List Bytes) :
    Carries first (WorkspaceM.textsOf allocator pieces) := by
  unfold WorkspaceM.textsOf
  induction pieces generalizing first with
  | nil => exact .refl first
  | cons piece rest ih =>
      rw [List.mapM_cons]
      refine (carries_textOfBytes allocator piece).bind ?_
      intro _ second _ _
      exact ih.bind fun _ last _ _ => .refl last

/-! ## Tokens -/

theorem carries_release (id : BufferId) :
    Carries first (WorkspaceM.onBuffer id BufferM.release) := by
  by_cases inside : id.index < first.buffers.size
  · exact carries_onBuffer inside (Buffer.honors_release _ _)
  -- A name without a buffer stands for one that has no block to give back.
  · obtain ⟨memory, buffers⟩ := first
    have unknown := Nat.le_of_not_lt inside
    obtain ⟨after, released, trades⟩ := Buffer.trades_release absentBuffer memory
    have absent : (Workspace.mk memory buffers).buffer id = absentBuffer :=
      buffer_eq_absent unknown
    unfold Workspace.buffer at absent
    unfold Carries WorkspaceM.onBuffer BufferM.release BufferM.replace
    dsimp only
    rw [absent, released]
    dsimp only [final]
    rw [Array.setIfInBounds_eq_of_size_le unknown]
    exact carried_unpushed rfl trades rfl

theorem carried_drop (allocator : AllocatorId) (id : BufferId) :
    Carried first ((payloadStore allocator).drop id first) := by
  rw [drop_eq_final]
  exact carries_release id

theorem carried_drops (allocator : AllocatorId) (names : List BufferId) :
    Carried first
      (names.foldl (fun workspace name => (payloadStore allocator).drop name workspace) first) := by
  induction names generalizing first with
  | nil => exact .refl first
  | cons name rest ih => exact (carried_drop allocator name).trans ih

theorem carried_intern (allocator : AllocatorId) (tokens : List (Token Bytes)) :
    Carried first ((payloadStore allocator).intern [] tokens first).2.2 := by
  refine intern_keeps ?_ [] tokens (.refl first)
  intro bytes between carried
  rw [hold_eq_final]
  exact carried.trans (carries_textOfBytes allocator bytes)

theorem carries_tokenize (lexer : Lexer) : Carries first (WorkspaceM.tokenize lexer) := by
  have interned : Carried first _ :=
    carried_intern lexer.allocator (Scan.run lexer.rules lexer.source).tokens
  unfold Carries WorkspaceM.tokenize PayloadStore.tokenize
  dsimp only
  cases ran : (payloadStore lexer.allocator).intern []
      (Scan.run lexer.rules lexer.source).tokens first with
  | mk tokens rest =>
      obtain ⟨fault?, filled⟩ := rest
      rw [ran] at interned
      have released : Carried first ((payloadStore lexer.allocator).release tokens filled) :=
        interned.trans (carried_drops lexer.allocator _)
      cases fault? with
      | some fault => exact released
      | none =>
          cases (Scan.run lexer.rules lexer.source).ending with
          | complete => exact interned
          | failed offset problem => exact released

theorem carries_releaseTokens (tokens : List (Token BufferId)) :
    Carries first (WorkspaceM.releaseTokens tokens) := by
  unfold Carries
  rw [releaseTokens_eq ⟨0⟩]
  exact carried_drops ⟨0⟩ _

/-! ## Steps -/

theorem carries_carryOut {command : BufferCommand}
    (known : (WorkspaceCommand.onBuffers command).isKnown first = true) :
    Carries first (WorkspaceM.carryOut command) := by
  have inside : ∀ id, command.target? = some id → id.index < first.buffers.size := by
    intro id target
    simpa [WorkspaceCommand.isKnown, WorkspaceCommand.targets, target] using known
  cases command with
  | newHeap => exact carries_newHeap.map _
  | newArena capacity => exact (carries_newArena capacity).map _
  | newBuffer allocator pattern inlineCapacity =>
      exact (carries_newBuffer allocator pattern inlineCapacity).map _
  | newText allocator inlineCapacity => exact (carries_newText allocator inlineCapacity).map _
  | push id value => exact (carries_onBuffer (inside id rfl) (Buffer.honors_push _ _ value)).map _
  | extend id values =>
      exact (carries_onBuffer (inside id rfl) (Buffer.honors_extend _ _ values)).map _
  | extendBy id source =>
      exact (carries_onBuffer (inside id rfl)
        (Buffer.honors_extendBy _ _ (first.buffer source))).map _
  | append id piece =>
      refine Carries.map ?_ _
      cases piece with
      | number value => exact carries_onBuffer (inside id rfl) (Buffer.honors_push _ _ (.int value))
      | bytes bytes => exact carries_appendBytes (inside id rfl) bytes
      | string text => exact carries_appendBytes (inside id rfl) (Utf8.encode text)
      | text source => exact carries_appendBytes (inside id rfl) (first.content source)
  | get id index => exact (carries_asked (get_answer index _)).map _
  | set id index value =>
      exact (carries_onBuffer (inside id rfl) (Buffer.honors_set _ _ (.int index) value)).map _
  | pop id => exact (carries_onBuffer (inside id rfl) (Buffer.honors_pop _ _)).map _
  | clear id => exact (carries_onBuffer (inside id rfl) (Buffer.honors_clear _ _)).map _
  | reserve id capacity =>
      exact (carries_onBuffer (inside id rfl)
        (Buffer.honors_replace (Buffer.deals_reserve _ _ capacity))).map _
  | resize id count =>
      exact (carries_onBuffer (inside id rfl)
        (Buffer.honors_replace (Buffer.deals_resize _ _ count))).map _
  | copy id => exact (carries_copy id).map _
  | take id => exact (carries_take (inside id rfl)).map _
  | release id => exact (carries_release id).map _
  | length id => exact .refl first
  | toList id => exact (carries_asked (toList_answer _)).map _
  | toBytes id => exact .refl first

theorem carries_get {next : Workspace → WorkspaceM α} (carries : Carries first (next first)) :
    Carries first (get >>= next) :=
  carries

/-- A command carries the balance over, whether it fails or not. -/
theorem carries_follow {command : WorkspaceCommand} (known : command.isKnown first = true) :
    Carries first (WorkspaceM.follow command) := by
  cases command with
  | onBuffers command => exact (carries_carryOut known).map _
  | textOf allocator content => exact carries_get ((carries_textOfBytes _ _).map _)
  | concat allocator separator parts => exact carries_get ((carries_concat _ _ _).map _)
  | split allocator delimiter content => exact carries_get ((carries_textsOf _ _).map _)
  | splitLines allocator content => exact carries_get ((carries_textsOf _ _).map _)
  | tokenize lexer => exact (carries_tokenize lexer).map _
  | releaseTokens tokens => exact carries_releaseTokens tokens
  | close allocator => exact carries_close allocator

end Actions

/-! ## Runs -/

theorem followAll_append (workspace : Workspace) (earlier later : List WorkspaceCommand) :
    workspace.followAll (earlier ++ later) = (workspace.followAll earlier).followAll later :=
  List.foldl_append

theorem knowsAll_append (workspace : Workspace) (earlier later : List WorkspaceCommand) :
    workspace.knowsAll (earlier ++ later) =
      (workspace.knowsAll earlier && (workspace.followAll earlier).knowsAll later) := by
  induction earlier generalizing workspace with
  | nil => rfl
  | cons command rest ih =>
      rw [List.cons_append, knowsAll, knowsAll, ih, Bool.and_assoc]
      rfl

theorem carried_followAll {commands : List WorkspaceCommand}
    (known : first.knowsAll commands = true) : Carried first (first.followAll commands) := by
  induction commands generalizing first with
  | nil => exact .refl first
  | cons command rest ih =>
      obtain ⟨now, behind⟩ := Bool.and_eq_true_iff.mp known
      exact Carried.trans (carries_follow now) (ih behind)

def releases (workspace : Workspace) : List WorkspaceCommand :=
  (List.range workspace.buffers.size).map fun index => .onBuffers (.release ⟨index⟩)

private theorem buffers_release (workspace : Workspace) (id : BufferId) :
    (final (WorkspaceM.follow (.onBuffers (.release id)) workspace)).buffers =
      workspace.buffers.setIfInBounds id.index (workspace.buffer id).emptied := by
  obtain ⟨memory, buffers⟩ := workspace
  obtain ⟨after, released, -⟩ := Buffer.release_eq ((Workspace.mk memory buffers).buffer id) memory
  have same : final (WorkspaceM.follow (.onBuffers (.release id)) ⟨memory, buffers⟩) =
      final (WorkspaceM.onBuffer id BufferM.release ⟨memory, buffers⟩) :=
    (final_map _ _ _).trans (final_map _ _ _)
  rw [same]
  unfold Workspace.buffer at released ⊢
  simp only [WorkspaceM.onBuffer, BufferM.release, BufferM.replace, released]
  rfl

theorem owned?_release (workspace : Workspace) (id other : BufferId) :
    ((final (WorkspaceM.follow (.onBuffers (.release id)) workspace)).buffer other).owned? =
      if other = id then none else (workspace.buffer other).owned? := by
  have released := buffers_release workspace id
  generalize final (WorkspaceM.follow (.onBuffers (.release id)) workspace) = after at released ⊢
  obtain ⟨memory, buffers⟩ := after
  dsimp only at released
  subst released
  split
  · rename_i same
    subst same
    by_cases inside : other.index < workspace.buffers.size
    · rw [buffer_setIfInBounds_self inside]
      exact Buffer.owned?_emptied _
    · have unknown := Nat.le_of_not_lt inside
      have absent : (Workspace.mk memory workspace.buffers).buffer other = absentBuffer :=
        buffer_eq_absent unknown
      rw [Array.setIfInBounds_eq_of_size_le unknown, absent]
      rfl
  · rename_i different
    rw [buffer_setIfInBounds_other different _ _ _ workspace.memory]

private theorem owned?_released {indices : List Nat}
    (covered : id.index ∈ indices ∨ (workspace.buffer id).owned? = none) :
    ((workspace.followAll (indices.map fun index => .onBuffers (.release ⟨index⟩))).buffer
      id).owned? = none := by
  induction indices generalizing workspace with
  | nil => exact covered.resolve_left List.not_mem_nil
  | cons index rest ih =>
      refine ih ?_
      rw [owned?_release]
      split
      · exact .inr rfl
      · rename_i different
        refine covered.imp_left fun member => (List.mem_cons.mp member).resolve_left ?_
        exact fun same => different (congrArg BufferId.mk same)

theorem owned?_releases (workspace : Workspace) (id : BufferId) :
    ((workspace.followAll workspace.releases).buffer id).owned? = none := by
  refine owned?_released ?_
  by_cases inside : id.index < workspace.buffers.size
  · exact .inl (List.mem_range.mpr inside)
  · rw [buffer_eq_absent (Nat.le_of_not_lt inside)]
    exact .inr rfl

private theorem knowsAll_released {indices : List Nat}
    (inside : ∀ index ∈ indices, index < workspace.buffers.size) :
    workspace.knowsAll (indices.map fun index => .onBuffers (.release ⟨index⟩)) = true := by
  induction indices generalizing workspace with
  | nil => rfl
  | cons index rest ih =>
      have now : (WorkspaceCommand.onBuffers (.release ⟨index⟩)).isKnown workspace = true := by
        simpa [WorkspaceCommand.isKnown, WorkspaceCommand.targets, BufferCommand.target?] using
          inside index List.mem_cons_self
      have size_le := (carries_follow now).size_le
      refine Bool.and_eq_true_iff.mpr ⟨now, ih fun other member => ?_⟩
      exact Nat.lt_of_lt_of_le (inside other (List.mem_cons_of_mem index member)) size_le

theorem knowsAll_releases (workspace : Workspace) :
    workspace.knowsAll workspace.releases = true :=
  knowsAll_released fun _ member => List.mem_range.mp member

private theorem mem_filterMap_buffers {α : Type} {has : Buffer → Option α}
    (nothing : has absentBuffer = none) (workspace : Workspace) (held : α) :
    held ∈ workspace.buffers.toList.filterMap has ↔
      ∃ id, has (workspace.buffer id) = some held := by
  rw [List.mem_filterMap]
  constructor
  · rintro ⟨buffer, member, owns⟩
    obtain ⟨index, inside, rfl⟩ := List.mem_iff_getElem.mp member
    refine ⟨⟨index⟩, ?_⟩
    have inside : index < workspace.buffers.size := by simpa using inside
    simpa [Workspace.buffer, inside] using owns
  · rintro ⟨id, owns⟩
    by_cases inside : id.index < workspace.buffers.size
    · refine ⟨workspace.buffer id, ?_, owns⟩
      simp [Workspace.buffer, inside]
    · rw [buffer_eq_absent (Nat.le_of_not_lt inside), nothing] at owns
      cases owns

private theorem owner_unique {held : Loan}
    (nodup : (workspace.buffers.toList.filterMap Buffer.owned?).Nodup) {one other : BufferId}
    (owns : (workspace.buffer one).owned? = some held)
    (also : (workspace.buffer other).owned? = some held) : one = other := by
  have known : ∀ id : BufferId, (workspace.buffer id).owned? = some held →
      ∃ inside : id.index < workspace.buffers.toList.length,
        workspace.buffers.toList[id.index] = workspace.buffer id := by
    intro id owns
    by_cases inside : id.index < workspace.buffers.size
    · exact ⟨by simpa using inside, by simp [Workspace.buffer, inside]⟩
    · rw [buffer_eq_absent (Nat.le_of_not_lt inside)] at owns
      cases owns
  have apart := List.pairwise_iff_getElem.mp (List.pairwise_filterMap.mp nodup)
  obtain ⟨inside, found⟩ := known one owns
  obtain ⟨within, shown⟩ := known other also
  obtain ⟨one⟩ := one
  obtain ⟨other⟩ := other
  refine congrArg BufferId.mk ?_
  rcases Nat.lt_trichotomy one other with less | same | more
  · exact absurd rfl (apart one other inside within less held (by rw [found, owns]) held
      (by rw [shown, also]))
  · exact same
  · exact absurd rfl (apart other one within inside more held (by rw [shown, also]) held
      (by rw [found, owns]))

/-! ## The ledger -/

/-- What the calls made in a run say, the last one first. -/
structure Ledger (start : Workspace) (commands : List WorkspaceCommand)
    (made : List AllocatorCall) : Prop where
  calls_eq : (start.followAll commands).memory.calls = made ++ start.memory.calls
  lent_nodup : (lentBy made).Nodup
  /-- What was lent and not repaid is what buffers own. -/
  owned_iff : ∀ loan, loan ∈ lentBy made ∧ loan ∉ repaidBy made ↔
    ∃ id, ((start.followAll commands).buffer id).owned? = some loan
  owner_unique : ∀ loan first second,
    ((start.followAll commands).buffer first).owned? = some loan →
      ((start.followAll commands).buffer second).owned? = some loan → first = second
  /-- Each block that was given back had been lent before, and not been given back since. -/
  owed_at_free : ∀ later earlier id block taken, made = later ++ .free id block taken :: earlier →
    ⟨id, block⟩ ∈ lentBy earlier ∧ ⟨id, block⟩ ∉ repaidBy earlier
  repaid_positive : ∀ loan ∈ repaidBy made, loan.block.isEmpty = false ∧ 0 < loan.block.size
  /-- A block that was inline at any time of the run was not given back. -/
  inline_unrepaid : ∀ earlier later, commands = earlier ++ later → ∀ id extent,
    ((start.followAll earlier).buffer id).inline? = some extent →
      ∀ allocator, ⟨allocator, .ofExtent extent⟩ ∉ repaidBy made

private theorem balances_of_run (fits : ∀ id, memory.Fits id)
    {earlier later : List WorkspaceCommand}
    (known : (Workspace.mk memory #[]).knowsAll (earlier ++ later) = true) :
    Balances memory.calls
      (((Workspace.mk memory #[]).followAll earlier).buffers.toList.filterMap Buffer.inline?)
      ((Workspace.mk memory #[]).followAll (earlier ++ later)).memory
      ((Workspace.mk memory #[]).followAll (earlier ++ later)).buffers.toList := by
  rw [knowsAll_append, Bool.and_eq_true_iff] at known
  obtain ⟨knownEarlier, knownLater⟩ := known
  have opened : Balances memory.calls [] memory [] := ⟨[], .opened fits⟩
  obtain ⟨calls, booked⟩ := (carried_followAll knownEarlier).balances memory.calls [] opened
  -- The inline blocks of the earlier time are kept as further ones from here on.
  rw [followAll_append]
  refine (carried_followAll knownLater).balances memory.calls _ ⟨calls, booked.subset ?_⟩
  rw [List.append_nil]
  exact List.append_subset.mpr ⟨List.Subset.refl _, List.Subset.refl _⟩

private theorem ledger_of_known (fits : ∀ id, memory.Fits id) {commands : List WorkspaceCommand}
    (known : (Workspace.mk memory #[]).knowsAll commands = true) :
    ∃ made, Ledger ⟨memory, #[]⟩ commands made ∧
      Account made (((Workspace.mk memory #[]).followAll commands).buffers.toList.filterMap
        Buffer.owned?) := by
  obtain ⟨made, booked⟩ := @balances_of_run memory fits [] commands known
  have account := booked.account
  have repaid_lent : ∀ loan ∈ repaidBy made, loan ∈ lentBy made := fun loan member =>
    account.perm.mem_iff.mpr (List.mem_append_left _ member)
  refine ⟨made, ⟨booked.calls_eq, account.nodup, ?_, ?_, ?_, ?_, ?_⟩, account⟩
  · intro loan
    rw [← account.mem_owed_iff]
    exact mem_filterMap_buffers rfl _ loan
  · intro loan first second owns also
    exact owner_unique (List.nodup_append.mp account.nodup_parts).2.1 owns also
  · intro later earlier id block taken split
    exact account.owed_at_free split
  · intro loan member
    exact account.positive (repaid_lent loan member)
  · rintro earlier later rfl id extent inline allocator member
    -- The record of calls is one, so both bookings are of the same calls.
    obtain ⟨same, further⟩ := balances_of_run fits known
    cases List.append_cancel_right (further.calls_eq.symm.trans booked.calls_eq)
    have listed := (mem_filterMap_buffers rfl _ extent).mpr ⟨id, inline⟩
    exact (further.unlent extent (List.mem_append_right _ listed) allocator).1
      (repaid_lent _ member)

/-- A run begins without buffers, over heaps and over arenas in whatever state. Whatever these
refuse, at every moment the blocks that were lent and not given back are exactly those that buffers
own, each of them one. No block is given back that is not owed, and no inline block is. Once all
buffers are released, what was lent is what was repaid. -/
theorem ledger_of_run {memory : Memory} (fits : ∀ id, memory.Fits id)
    {commands : List WorkspaceCommand}
    (known : (Workspace.mk memory #[]).knowsAll commands = true) :
    (∃ made, Ledger ⟨memory, #[]⟩ commands made) ∧
    ∃ made, Ledger ⟨memory, #[]⟩
        (commands ++ ((Workspace.mk memory #[]).followAll commands).releases) made ∧
      (lentBy made).Perm (repaidBy made) := by
  obtain ⟨made, ledger, -⟩ := ledger_of_known fits known
  refine ⟨⟨made, ledger⟩, ?_⟩
  have knownAll : (Workspace.mk memory #[]).knowsAll
      (commands ++ ((Workspace.mk memory #[]).followAll commands).releases) = true := by
    rw [knowsAll_append, known, knowsAll_releases]
    rfl
  obtain ⟨all, released, account⟩ := ledger_of_known fits knownAll
  refine ⟨all, released, ?_⟩
  have nothing : (((Workspace.mk memory #[]).followAll (commands ++
      ((Workspace.mk memory #[]).followAll commands).releases)).buffers.toList.filterMap
        Buffer.owned?) = [] := by
    rw [followAll_append, List.eq_nil_iff_forall_not_mem]
    intro loan member
    obtain ⟨id, owns⟩ := (mem_filterMap_buffers rfl _ loan).mp member
    rw [owned?_releases] at owns
    cases owns
  have balance := account.perm
  rwa [nothing, List.append_nil] at balance

def usedMemory : Memory :=
  (empty.followAll [.onBuffers (.newArena 40), .textOf ⟨0⟩ (.bytes [1, 2, 3])]).memory

/-- A buffer moves out of its inline block, grows once more and is moved. There is no room in the
arena to copy it, or to push to what is left of it. A text of a heap is copied and released. -/
def tradingRun : List WorkspaceCommand :=
  [.onBuffers (.newBuffer ⟨0⟩ "<h" 2), .onBuffers (.extend ⟨0⟩ [.int 1, .int 2, .int 3]),
    .onBuffers (.reserve ⟨0⟩ 9), .onBuffers (.copy ⟨0⟩), .onBuffers (.take ⟨0⟩),
    .onBuffers (.push ⟨0⟩ (.int 4)), .onBuffers .newHeap, .textOf ⟨1⟩ (.bytes [97, 98]),
    .onBuffers (.copy ⟨2⟩), .onBuffers (.release ⟨2⟩)]

theorem ledger_of_run_trading :
    ((Workspace.mk usedMemory #[]).followAll tradingRun).buffers.toList.map Buffer.owned? =
      [none, some ⟨⟨0⟩, ⟨some ⟨0⟩, 19, 18⟩⟩, none, some ⟨⟨1⟩, ⟨some ⟨5⟩, 0, 2⟩⟩] ∧
    (∃ made, Ledger ⟨usedMemory, #[]⟩ tradingRun made) ∧
    ∃ made, Ledger ⟨usedMemory, #[]⟩
        (tradingRun ++ ((Workspace.mk usedMemory #[]).followAll tradingRun).releases) made ∧
      (lentBy made).Perm (repaidBy made) := by
  refine ⟨by decide +kernel, ledger_of_run ?_ (by decide +kernel)⟩
  exact (leaves_followAll (orderly_empty .unlimited) (by decide +kernel)).orderly.sound.fits

end Workspace

end LexKit
