import LexKit.Proofs.Buffer.Exhaustion
import LexKit.Proofs.Workspace.Resetting

/-!
# Exhaustion in a workspace

What is left of a workspace when an allocator refuses a request. A command that asks for room once
leaves everything as it was, in every buffer. An extension keeps what it pushed until then. Its
elements move each time that it grows, so they are kept where the allocator does not have their own
bytes left to hand out, as it may after a reset.
-/

set_option autoImplicit false

namespace LexKit

def BufferCommand.needsRoom : BufferCommand → Bool
  | .push .. | .append .. | .reserve .. | .resize .. | .copy .. => true
  | _ => false

namespace Workspace

open Running

variable {workspace before after : Workspace} {memory : Memory} {buffers : Array Buffer}
  {id : BufferId} {cause : Fault} {command : BufferCommand}

/-- All buffers are the same, and so are all allocators and all storages; whatever a buffer is asked
for, it answers the same. -/
structure Unharmed (before after : Workspace) : Prop where
  buffers_eq : after.buffers = before.buffers
  intact : before.memory.Intact after.memory
  answer_eq : ∀ query id, query.asked? = some id →
    (after.perform query).1 = (before.perform query).1

theorem unharmed_of_intact {between : Memory} (standing : Standing ⟨memory, buffers⟩)
    (intact : memory.Intact between) : Unharmed ⟨memory, buffers⟩ ⟨between, buffers⟩ := by
  have changed := intact.changes fun _ _ => False
  refine ⟨rfl, intact, ?_⟩
  intro query id asked
  have undisturbed : Undisturbed ⟨memory, buffers⟩ ⟨between, buffers⟩ id := by
    refine ⟨rfl, ?_⟩
    exact Buffer.byteAt_of_changes changed (standing.held id) fun _ _ _ _ _ untouched => untouched
  exact undisturbed.answer_eq standing (upholds_of_changes standing changed).standing asked

/-! ## One request -/

theorem failed_of_perform {operation : BufferM Unit}
    (carried : WorkspaceM.carryOut command workspace =
      WorkspaceM.noted (WorkspaceM.onBuffer id operation) workspace)
    (failed : (workspace.perform command).1 = .fault cause) :
    ∃ state, operation ⟨workspace.buffer id, workspace.memory⟩ = .error cause state ∧
      (workspace.perform command).2 =
        ⟨state.memory, workspace.buffers.setIfInBounds id.index state.buffer⟩ := by
  obtain ⟨memory, buffers⟩ := workspace
  have performed := perform_onBuffer carried
  rw [performed] at failed ⊢
  cases ran : operation ⟨(Workspace.mk memory buffers).buffer id, memory⟩ with
  | ok done state =>
      rw [ran] at failed
      cases failed
  | error fault state =>
      rw [ran] at failed
      cases failed
      exact ⟨state, rfl, rfl⟩

theorem unharmed_of_recoils {operation : BufferM Unit} (standing : workspace.Standing)
    (carried : WorkspaceM.carryOut command workspace =
      WorkspaceM.noted (WorkspaceM.onBuffer id operation) workspace)
    (recoils : (workspace.buffer id).Recoils workspace.memory operation)
    (refused : cause.isRefusal = true)
    (failed : (workspace.perform command).1 = .fault cause) :
    Unharmed workspace (workspace.perform command).2 := by
  obtain ⟨state, ran, left⟩ := failed_of_perform carried failed
  obtain ⟨same, intact⟩ := recoils cause state refused ran
  rw [left, same, setIfInBounds_buffer]
  exact unharmed_of_intact standing intact

theorem unharmed_append {piece : Piece} (standing : workspace.Standing)
    (refused : cause.isRefusal = true)
    (failed : (workspace.perform (.append id piece)).1 = .fault cause) :
    Unharmed workspace (workspace.perform (.append id piece)).2 := by
  have appended : ∀ bytes : Bytes,
      (workspace.buffer id).Recoils workspace.memory (BufferM.appendBytes bytes) := fun bytes =>
    Buffer.recoils_replace fun _ _ failed => Buffer.intact_of_appendBytes failed
  cases piece with
  | number value =>
      exact unharmed_of_recoils standing rfl (Buffer.recoils_push _ _ (.int value)) refused failed
  | bytes value => exact unharmed_of_recoils standing rfl (appended value) refused failed
  | string text => exact unharmed_of_recoils standing rfl (appended _) refused failed
  | text source =>
      have carried : WorkspaceM.carryOut (.append id (.text source)) workspace =
          WorkspaceM.noted
            (WorkspaceM.onBuffer id (BufferM.appendBytes (workspace.content source))) workspace :=
        rfl
      exact unharmed_of_recoils standing carried (appended _) refused failed

theorem unharmed_copy (standing : workspace.Standing)
    (failed : (workspace.perform (.copy id)).1 = .fault cause) :
    Unharmed workspace (workspace.perform (.copy id)).2 := by
  obtain ⟨memory, buffers⟩ := workspace
  rw [perform_addBuffer (carryOut_copy id ⟨memory, buffers⟩)] at failed ⊢
  cases ran : Buffer.copy ((Workspace.mk memory buffers).buffer id) memory with
  | ok clone between =>
      rw [ran] at failed
      cases failed
  | error fault between => exact unharmed_of_intact standing (Buffer.intact_of_copy ran)

theorem unharmed_of_refusal (standing : workspace.Standing) (needs : command.needsRoom = true)
    (refused : cause.isRefusal = true) (failed : (workspace.perform command).1 = .fault cause) :
    Unharmed workspace (workspace.perform command).2 := by
  cases command with
  | push id value =>
      exact unharmed_of_recoils standing rfl (Buffer.recoils_push _ _ value) refused failed
  | append id piece => exact unharmed_append standing refused failed
  | reserve id capacity =>
      refine unharmed_of_recoils standing rfl (Buffer.recoils_replace ?_) refused failed
      exact fun _ _ failed => Buffer.intact_of_reserve failed
  | resize id count =>
      refine unharmed_of_recoils standing rfl (Buffer.recoils_replace ?_) refused failed
      exact fun _ _ failed => Buffer.intact_of_resize failed
  | copy id => exact unharmed_copy standing failed
  | _ => cases needs

/-! ## Many values -/

/-- An extension stopped behind the values `done`, of which the items keep `kept`. -/
structure Halted (before : Workspace) (id : BufferId) (done kept : List Value)
    (after : Workspace) : Prop where
  kept_eq : done.mapM (before.buffer id).layout.kept? = some kept
  count_eq : (after.buffer id).count = (before.buffer id).count + done.length
  unharmed : ∃ between, before.perform (.extend id done) = (.nothing, between) ∧
    Unharmed between after
  elements_eq : (before.buffer id).Settled before.memory (before.buffer id).allocator →
    (after.buffer id).elements after.memory =
      (before.buffer id).elements before.memory ++ kept
  listed : ∀ item, (before.buffer id).layout.singleItem? = some item →
    (before.buffer id).layout.isReadable = true →
      (before.perform (.toList id)).1 =
        .values ((before.buffer id).elements before.memory) ∧
      (after.perform (.toList id)).1 = .values ((after.buffer id).elements after.memory)

theorem halted_of_refusal {values : List Value} (standing : workspace.Standing)
    (known : id.index < workspace.buffers.size) (refused : cause.isRefusal = true)
    (failed : (workspace.perform (.extend id values)).1 = .fault cause) :
    ∃ done value rest kept, values = done ++ value :: rest ∧
      Halted workspace id done kept (workspace.perform (.extend id values)).2 := by
  obtain ⟨memory, buffers⟩ := workspace
  obtain ⟨state, ran, left⟩ := failed_of_perform rfl failed
  obtain ⟨done, kept, middle, stopped⟩ := Buffer.stopped_of_extend (standing.fits _)
    (standing.housed id) (standing.held id) ran
  obtain ⟨value, rest, split, pushing⟩ := stopped.failing
  obtain ⟨pushed, between⟩ := middle
  -- The push that failed came last, and left the buffer that those before it gave.
  obtain ⟨same, intact⟩ := Buffer.recoils_push pushed between value cause state refused pushing
  have confined := stopped.pushed.confined
  have stands := (upholds_setIfInBounds standing confined).standing
  have shown : ∀ last : Memory,
      (Workspace.mk last (buffers.setIfInBounds id.index pushed)).buffer id = pushed :=
    fun last => buffer_setIfInBounds_self known pushed last
  have changed := intact.changes fun _ _ => False
  have unharmed := unharmed_of_intact stands intact
  refine ⟨done, value, rest, kept, split, stopped.kept_eq, ?_, ?_, ?_, ?_⟩
  · rw [left, same, shown, stopped.pushed.count_eq, stopped.length_eq]
  · refine ⟨⟨between, buffers.setIfInBounds id.index pushed⟩, ?_, ?_⟩
    · rw [perform_onBuffer rfl, stopped.extended]
    · rw [left, same]
      exact unharmed
  · intro settled
    rw [left, same, shown, Buffer.elements_of_changes changed confined.housed
      (confined.held (standing.held id)), stopped.pushed.elements_eq settled]
  · intro item single readable
    rw [standing.list_eq single readable]
    have after_stands := (upholds_of_changes stands changed).standing
    rw [left, same]
    have made : ((Workspace.mk state.memory
        (buffers.setIfInBounds id.index pushed)).buffer id).layout =
          ((Workspace.mk memory buffers).buffer id).layout := by
      rw [shown]
      exact confined.advance.make.layout_eq
    rw [← made] at single readable
    rw [after_stands.list_eq single readable]
    exact ⟨rfl, rfl⟩

/-- An extension by another buffer that memory stops has read some values by then. It has done what
the extension by these values alone would have done, and failed in the same way. -/
theorem halted_by_refusal {source : BufferId} (refused : cause.isRefusal = true)
    (failed : (workspace.perform (.extendBy id source)).1 = .fault cause) :
    ∃ extent values, (workspace.buffer source).block = some extent ∧
      values.length ≤ (workspace.buffer source).count ∧
      Buffer.ReadInTurn (workspace.buffer source) extent 0 values
        ⟨workspace.buffer id, workspace.memory⟩ ∧
      workspace.perform (.extend id values) = workspace.perform (.extendBy id source) := by
  have carried : WorkspaceM.carryOut (.extendBy id source) workspace = WorkspaceM.noted
      (WorkspaceM.onBuffer id (BufferM.extendBy (workspace.buffer source))) workspace := rfl
  obtain ⟨state, ran, left⟩ := failed_of_perform carried failed
  unfold BufferM.extendBy at ran
  cases block : (workspace.buffer source).block with
  | none =>
      rw [block] at ran
      cases ran
  | some extent =>
      rw [block] at ran
      obtain ⟨values, bound, turns, extended⟩ := Buffer.extend_of_extendFrom refused ran
      refine ⟨extent, values, rfl, bound, turns, ?_⟩
      obtain ⟨memory, buffers⟩ := workspace
      rw [Prod.ext_iff, failed, left, perform_onBuffer rfl, extended]
      exact ⟨rfl, rfl⟩

/-! ## Runs -/

/-- What a refusal leaves of a workspace, whichever command it stops. -/
structure Withstands (workspace : Workspace) : Prop where
  unharmed : ∀ command cause, command.needsRoom = true → cause.isRefusal = true →
    (workspace.perform command).1 = .fault cause →
      Unharmed workspace (workspace.perform command).2
  extended : ∀ id values cause, id.index < workspace.buffers.size → cause.isRefusal = true →
    (workspace.perform (.extend id values)).1 = .fault cause →
      ∃ done value rest kept, values = done ++ value :: rest ∧
        Halted workspace id done kept (workspace.perform (.extend id values)).2
  /-- To extend by a buffer is to extend by the values that its elements show in turn. -/
  extendedBy : ∀ id source cause, cause.isRefusal = true →
    (workspace.perform (.extendBy id source)).1 = .fault cause →
      ∃ extent values, (workspace.buffer source).block = some extent ∧
        values.length ≤ (workspace.buffer source).count ∧
        Buffer.ReadInTurn (workspace.buffer source) extent 0 values
          ⟨workspace.buffer id, workspace.memory⟩ ∧
        workspace.perform (.extend id values) = workspace.perform (.extendBy id source)

/-- After any run, whatever its allocators have left. Without a reset, no buffer has its block among
the bytes that its allocator has left. -/
theorem withstands_of_run (machine : Machine) (commands : List StoreCommand) :
    ((empty machine).obeyAll commands).Withstands ∧
      ((∀ command ∈ commands, command.isReset = false) →
        ((empty machine).obeyAll commands).Settled) := by
  have standing := standing_obeyAll (standing_empty machine) commands
  refine ⟨⟨?_, ?_, ?_⟩, settled_obeyAll (standing_empty machine) (settled_empty machine)⟩
  · exact fun _ _ needs refused failed => unharmed_of_refusal standing needs refused failed
  · exact fun _ _ _ known refused failed => halted_of_refusal standing known refused failed
  · exact fun _ _ _ refused failed => halted_by_refusal refused failed

def numbers (first count : Nat) : List Value :=
  (List.range' first count).map fun (number : Nat) => .int number

/-- A buffer of bytes that fills its block, in an arena that has room for one block more. -/
def fullRun : List StoreCommand :=
  [.follow (.onBuffers (.newArena 24)), .follow (.onBuffers (.newBuffer ⟨0⟩ "B" 0)),
    .follow (.onBuffers (.extend ⟨0⟩ (numbers 1 8)))]

theorem withstands_of_run_full :
    ((empty.obeyAll fullRun).perform (.extend ⟨0⟩ (numbers 11 9))).1 =
        .fault (.arenaExhausted 32 0 24) ∧
      (((empty.obeyAll fullRun).perform (.extend ⟨0⟩ (numbers 11 9))).2.perform (.toList ⟨0⟩)).1 =
        .values (numbers 1 8 ++ numbers 11 8) := by
  have refused : ((empty.obeyAll fullRun).perform (.extend ⟨0⟩ (numbers 11 9))).1 =
      .fault (.arenaExhausted 32 0 24) := by decide +kernel
  have lasting : ∀ command ∈ fullRun, command.isReset = false := by decide +kernel
  have before : (((empty.obeyAll fullRun).buffer ⟨0⟩).elements (empty.obeyAll fullRun).memory) =
      numbers 1 8 := by decide +kernel
  have length :
      (((empty.obeyAll fullRun).perform (.extend ⟨0⟩ (numbers 11 9))).2.buffer ⟨0⟩).count =
        ((empty.obeyAll fullRun).buffer ⟨0⟩).count + 8 := by decide +kernel
  obtain ⟨withstands, settled⟩ := withstands_of_run .unlimited fullRun
  obtain ⟨done, value, rest, kept, split, halted⟩ :=
    withstands.extended ⟨0⟩ (numbers 11 9) _ (by decide +kernel) rfl refused
  have eight : done.length = 8 := Nat.add_left_cancel (halted.count_eq.symm.trans length)
  have first : done = numbers 11 8 := by
    have front : (numbers 11 9).take 8 = done := by rw [split, ← eight, List.take_left]
    exact front.symm.trans (by decide +kernel)
  have keeps : kept = numbers 11 8 := by
    have same := halted.kept_eq
    rw [first] at same
    exact Option.some.inj (same.symm.trans (by decide +kernel))
  obtain ⟨-, listed⟩ := halted.listed (0, .integer false 1) (by decide +kernel) (by decide +kernel)
  refine ⟨refused, listed.trans (congrArg Answer.values ?_)⟩
  rw [halted.elements_eq (settled lasting ⟨0⟩), before, keeps]

/-- A buffer of bytes whose arena has its block left to hand out again. -/
def recycledRun : List StoreCommand :=
  [.follow (.onBuffers (.newArena 16)), .follow (.onBuffers (.newBuffer ⟨0⟩ "B" 0)),
    .follow (.onBuffers (.extend ⟨0⟩ (numbers 1 8))), .reset ⟨0⟩]

/-- After a reset, an extension that is refused may lose the elements that there were: the block
that the buffer grew into was cleared, and it was its own. -/
theorem not_kept_after_reset :
    ¬∀ (done : List StoreCommand) (id : BufferId) (values shown : List Value) (cause : Fault),
      cause.isRefusal = true →
      ((empty.obeyAll done).perform (.toList id)).1 = .values shown →
      ((empty.obeyAll done).perform (.extend id values)).1 = .fault cause →
        ∃ count, (((empty.obeyAll done).perform (.extend id values)).2.perform (.toList id)).1 =
          .values (shown ++ values.take count) := by
  intro kept
  obtain ⟨count, same⟩ := kept recycledRun ⟨0⟩ (numbers 11 9) (numbers 1 8)
    (.arenaExhausted 32 0 16) rfl (by decide +kernel) (by decide +kernel)
  have lost : (((empty.obeyAll recycledRun).perform (.extend ⟨0⟩ (numbers 11 9))).2.perform
      (.toList ⟨0⟩)).1 = .values (List.replicate 8 (.int 0) ++ numbers 11 8) := by
    decide +kernel
  rw [lost] at same
  cases same

end Workspace

end LexKit
