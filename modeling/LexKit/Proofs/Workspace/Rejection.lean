import LexKit.Proofs.Buffer.Rejection
import LexKit.Proofs.Workspace.Resetting

/-!
# Rejected values in a workspace

A value that a layout rejects is noticed too late: the place that it was meant for was cleared by
then. An assignment loses the element that it was to replace, though it fails, while a push that
fails loses nothing, as no element stood in its place.
-/

set_option autoImplicit false

namespace LexKit.Workspace

open Running

variable {workspace : Workspace} {id : BufferId} {value : Value} {refusal : Fault} {offset : Nat}
  {type : FieldType}

theorem onBuffer_error {α : Type} {operation : BufferM α} {cause : Fault} {state : BufferState}
    (ran : operation ⟨workspace.buffer id, workspace.memory⟩ = .error cause state) :
    WorkspaceM.onBuffer id operation workspace =
      .error cause ⟨state.memory, workspace.buffers.setIfInBounds id.index state.buffer⟩ := by
  unfold Workspace.buffer at ran
  simp only [WorkspaceM.onBuffer, ran]

structure Rejected (workspace : Workspace) (id : BufferId) (value : Value) (refusal : Fault) :
    Prop where
  unnamed : ∀ index cause, (workspace.buffer id).checkIndex index = .error cause →
    WorkspaceM.onBuffer id (BufferM.set index value) workspace = .error cause workspace
  outside : ∀ index : Int, index < 0 ∨ (workspace.buffer id).count ≤ index →
    WorkspaceM.onBuffer id (BufferM.set (.int index) value) workspace =
      .error (.indexOutOfRange (.int index) (workspace.buffer id).count) workspace
  /-- An assignment fails, and changes what the element shows. -/
  assigned : ∀ index place, (workspace.buffer id).checkIndex index = .ok place → ∃ after,
    WorkspaceM.onBuffer id (BufferM.set index value) workspace = .error refusal after ∧
    after.buffers = workspace.buffers ∧
    (after.buffer id).elements after.memory =
      ((workspace.buffer id).elements workspace.memory).set place
        ((workspace.buffer id).layout.spoiled value)
  /-- A push fails, be it for want of room, and leaves the elements what they were. -/
  pushed : ∃ cause after,
    WorkspaceM.onBuffer id (BufferM.push value) workspace = .error cause after ∧
    (cause = refusal ∨
      ∃ between, (workspace.buffer id).makeRoom workspace.memory = .error cause between) ∧
    (after.buffer id).count = (workspace.buffer id).count ∧
    ((workspace.buffer id).Lasting workspace.memory →
      (after.buffer id).elements after.memory =
        (workspace.buffer id).elements workspace.memory)

theorem checkIndex_outside {buffer : Buffer} {index : Int}
    (outside : index < 0 ∨ buffer.count ≤ index) :
    buffer.checkIndex (.int index) = .error (.indexOutOfRange (.int index) buffer.count) := by
  simp only [Buffer.checkIndex, Quantity.whole?]
  rw [if_neg (by omega)]

theorem set_error {index : Quantity} {cause : Fault} {after : Memory}
    (ran : (workspace.buffer id).set index value workspace.memory = .error cause after) :
    WorkspaceM.onBuffer id (BufferM.set index value) workspace =
      .error cause ⟨after, workspace.buffers⟩ := by
  have observed : BufferM.set index value ⟨workspace.buffer id, workspace.memory⟩ =
      .error cause ⟨workspace.buffer id, after⟩ := by
    simp only [BufferM.set, BufferM.observe, ran]
  rw [onBuffer_error observed, setIfInBounds_buffer]

/-- A rejected value may be assigned where there is no element or where there is one, and it may be
pushed. In any workspace that stands, each of these comes to what is said of it. -/
theorem rejected_of_standing (standing : workspace.Standing)
    (known : id.index < workspace.buffers.size)
    (rejects : (workspace.buffer id).layout.Rejects value refusal offset type) :
    Rejected workspace id value refusal := by
  have housed := standing.housed id
  have held := standing.held id
  have unnamed : ∀ index cause, (workspace.buffer id).checkIndex index = .error cause →
      WorkspaceM.onBuffer id (BufferM.set index value) workspace = .error cause workspace :=
    fun index cause named => set_error (Buffer.set_unnamed rejects.single named value _)
  constructor
  · exact unnamed
  · intro index outside
    exact unnamed _ _ (checkIndex_outside outside)
  · intro index place named
    refine ⟨_, set_error (Buffer.set_rejected housed rejects named _), rfl, ?_⟩
    exact Buffer.elements_set_rejected housed held rejects (Buffer.checkIndex_lt named)
  · obtain ⟨cause, state, ran, rejected⟩ :=
      Buffer.push_rejected (standing.fits _) housed held rejects
    refine ⟨cause, _, onBuffer_error ran, rejected.cause, ?_, ?_⟩
    · rw [buffer_setIfInBounds_self known]
      exact rejected.count_eq
    · rw [buffer_setIfInBounds_self known]
      exact rejected.elements_eq

/-- After any run, resets included. Without a reset the elements last also where a push makes the
buffer grow. -/
theorem rejected_of_run {machine : Machine} (commands : List StoreCommand)
    (known : id.index < ((empty machine).obeyAll commands).buffers.size)
    (rejects : (((empty machine).obeyAll commands).buffer id).layout.Rejects value refusal offset
      type) :
    let reached := (empty machine).obeyAll commands
    Rejected reached id value refusal ∧
      ((∀ command ∈ commands, command.isReset = false) →
        (reached.buffer id).Lasting reached.memory) ∧
      ((reached.buffer id).layout.isReadable = true →
        reached.perform (.toList id) =
          (.values ((reached.buffer id).elements reached.memory), reached)) := by
  have standing := standing_obeyAll (standing_empty machine) commands
  refine ⟨rejected_of_standing standing known rejects, ?_, ?_⟩
  · intro lasting
    exact .inr (settled_obeyAll (standing_empty machine) (settled_empty machine) lasting id)
  · exact standing.list_eq rejects.single

/-- A buffer of numbers of eight bytes, the most significant one first. -/
def wideRun : List StoreCommand :=
  [.follow (.onBuffers (.newArena 64)), .follow (.onBuffers (.newBuffer ⟨0⟩ ">q" 0)),
    .follow (.onBuffers (.extend ⟨0⟩ [.int 1, .int 2, .int 3]))]

/-- A number that is too large by a multiple of 2 ^ 64 leaves its remainder in the element. -/
theorem rejected_of_run_wide :
    ∃ after, WorkspaceM.onBuffer ⟨0⟩ (BufferM.set (.int 1) (.int 18446744073709551621))
        (empty.obeyAll wideRun) = .error .rejectedValue after ∧
      (after.buffer ⟨0⟩).elements after.memory = [.int 1, .int 5, .int 3] := by
  have known : (⟨0⟩ : BufferId).index < (empty.obeyAll wideRun).buffers.size := by decide +kernel
  have rejects : ((empty.obeyAll wideRun).buffer ⟨0⟩).layout.Rejects (.int 18446744073709551621)
      .rejectedValue 0 (.integer true 8) := ⟨by decide +kernel, by decide +kernel⟩
  have named : ((empty.obeyAll wideRun).buffer ⟨0⟩).checkIndex (.int 1) = .ok 1 := by
    decide +kernel
  have before : ((empty.obeyAll wideRun).buffer ⟨0⟩).elements (empty.obeyAll wideRun).memory =
      [.int 1, .int 2, .int 3] := by decide +kernel
  have spoiled : ((empty.obeyAll wideRun).buffer ⟨0⟩).layout.spoiled (.int 18446744073709551621) =
      .int 5 := by decide +kernel
  have rejected := (rejected_of_run wideRun known rejects).1
  obtain ⟨after, failed, -, left⟩ := rejected.assigned (.int 1) 1 named
  refine ⟨after, failed, ?_⟩
  rw [left, before, spoiled]
  rfl

def narrowRun : List BufferCommand :=
  [.newHeap, .newBuffer ⟨0⟩ "B" 0, .extend ⟨0⟩ [.int 1, .int 2, .int 3]]

/-- An assignment that fails does not leave the elements what they were. -/
theorem not_kept_by_failed_set :
    ¬∀ (done : List BufferCommand) (id : BufferId) (index : Int) (value : Value) (cause : Fault),
      ((performAll done empty).2.perform (.set id index value)).1 = .fault cause →
        (((performAll done empty).2.perform (.set id index value)).2.perform (.toList id)).1 =
          ((performAll done empty).2.perform (.toList id)).1 := by
  intro kept
  have same := kept narrowRun ⟨0⟩ 1 (.int 300) .rejectedValue (by decide +kernel)
  have before : ((performAll narrowRun empty).2.perform (.toList ⟨0⟩)).1 =
      .values [.int 1, .int 2, .int 3] := by decide +kernel
  have after : (((performAll narrowRun empty).2.perform (.set ⟨0⟩ 1 (.int 300))).2.perform
      (.toList ⟨0⟩)).1 = .values [.int 1, .int 0, .int 3] := by decide +kernel
  rw [before, after] at same
  cases same

end LexKit.Workspace
