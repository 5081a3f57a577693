import LexKit.Proofs.Buffer.Doubling
import LexKit.Proofs.Workspace.Resetting
import LexKit.Session.Sequences

/-!
# A buffer that is extended by itself

Whatever was done to a workspace, short of resetting an arena: a buffer that is extended by itself
has its elements twice then, and a text that is appended to itself its bytes, if there is room for
them. Where there is none, the allocator refuses the only block that is asked for.
-/

set_option autoImplicit false

namespace LexKit

namespace Workspace

open Running

variable {workspace : Workspace} {id : BufferId} {values : List Value}

/-- What becomes of a buffer that lists `values` when it is extended by itself. -/
structure Doubles (workspace : Workspace) (id : BufferId) (values : List Value) : Prop where
  /-- Whatever is pushed and reserved meanwhile, the old block shows the same elements. -/
  steady : ∀ extent state, (workspace.buffer id).block = some extent →
    BufferState.LeadsTo ⟨workspace.buffer id, workspace.memory⟩ state →
      ∀ index (inside : index < values.length),
        (workspace.buffer id).element extent index state.memory = .ok values[index] state.memory
  /-- The loop pushes what the buffer listed at the beginning. -/
  extendBy_eq : workspace.perform (.extendBy id id) = workspace.perform (.extend id values)
  extended :
    (workspace.buffer id).RoomToDouble (workspace.buffer id).growth workspace.memory →
      (workspace.perform (.extendBy id id)).1 = .nothing ∧
        ((workspace.perform (.extendBy id id)).2.perform (.toList id)).1 =
          .values (values ++ values)
  refused :
    ¬(workspace.buffer id).RoomToDouble (workspace.buffer id).growth workspace.memory →
      (workspace.perform (.extendBy id id)).1.isShortage = true

def doubleSize (workspace : Workspace) (id : BufferId) : Nat :=
  2 * (workspace.buffer id).count * (workspace.buffer id).layout.size

/-! ## Elements -/

theorem doubles_of_empty (empty : (workspace.buffer id).count = 0) :
    workspace.Doubles id [] := by
  obtain ⟨memory, buffers⟩ := workspace
  have nothing : BufferM.extendBy ((Workspace.mk memory buffers).buffer id)
      ⟨(Workspace.mk memory buffers).buffer id, memory⟩ =
        .ok () ⟨(Workspace.mk memory buffers).buffer id, memory⟩ := by
    unfold BufferM.extendBy
    rw [empty]
    cases ((Workspace.mk memory buffers).buffer id).block <;> rfl
  have listed : ((Workspace.mk memory buffers).perform (.toList id)).1 = .values [] := by
    rw [perform_answer rfl (toList_answer _)]
    unfold Buffer.allFound
    dsimp only
    rw [empty]
    cases ((Workspace.mk memory buffers).buffer id).block <;> rfl
  have same : (Workspace.mk memory buffers).perform (.extendBy id id) =
      (.nothing, ⟨memory, buffers⟩) := by
    have carried : WorkspaceM.carryOut (.extendBy id id) ⟨memory, buffers⟩ =
        WorkspaceM.noted (WorkspaceM.onBuffer id
          (BufferM.extendBy ((Workspace.mk memory buffers).buffer id))) ⟨memory, buffers⟩ := rfl
    rw [perform_onBuffer carried, nothing]
    dsimp only
    rw [setIfInBounds_buffer ⟨memory, buffers⟩ id]
  have also : (Workspace.mk memory buffers).perform (.extend id []) =
      (.nothing, ⟨memory, buffers⟩) := by
    rw [perform_onBuffer rfl]
    exact congrArg (Prod.mk _) (congrArg (Workspace.mk memory)
      (setIfInBounds_buffer ⟨memory, buffers⟩ id))
  refine ⟨?_, same.trans also.symm, fun _ => ?_, fun scarce => absurd (.inl ?_) scarce⟩
  · intro extent state _ _ index inside
    exact absurd inside (Nat.not_lt_zero index)
  · rw [same]
    exact ⟨rfl, listed⟩
  · rw [empty]
    exact Nat.zero_le _

theorem doubles_of_listed (standing : workspace.Standing)
    (known : id.index < workspace.buffers.size)
    (listed : (workspace.buffer id).Listed workspace.memory)
    (sized : 0 < (workspace.buffer id).layout.size) :
    workspace.Doubles id ((workspace.buffer id).elements workspace.memory) := by
  obtain ⟨memory, buffers⟩ := workspace
  have fits := standing.fits ((Workspace.mk memory buffers).buffer id).allocator
  obtain ⟨extended, refused⟩ := listed.extendBy_cases fits sized
  have carried : WorkspaceM.carryOut (.extendBy id id) ⟨memory, buffers⟩ =
      WorkspaceM.noted (WorkspaceM.onBuffer id
        (BufferM.extendBy ((Workspace.mk memory buffers).buffer id))) ⟨memory, buffers⟩ := rfl
  refine ⟨?_, ?_, ?_, ?_⟩
  · intro extent state block leads index inside
    have prolonged := Buffer.prolonged_of_leadsTo fits listed.housed listed.snug leads
    rw [Buffer.length_elements] at inside
    rw [Buffer.getElem_elements]
    exact listed.element_eq prolonged block inside
  · rw [perform_onBuffer carried, listed.extendBy_eq fits, perform_onBuffer rfl]
  · intro room
    obtain ⟨state, ran, pushed⟩ := extended room
    have confined := pushed.confined
    have stands := (upholds_setIfInBounds standing confined).standing
    have shown := buffer_setIfInBounds_self known state.buffer state.memory
    obtain ⟨item, single⟩ := listed.single
    have readable := listed.readable
    rw [← confined.advance.make.layout_eq, ← shown] at single readable
    rw [perform_onBuffer carried, ran]
    refine ⟨rfl, ?_⟩
    dsimp only
    rw [stands.list_eq single readable, shown, pushed.elements_eq listed.settled]
  · intro scarce
    obtain ⟨cause, state, ran, short⟩ := refused scarce
    rw [perform_onBuffer carried, ran]
    exact short

theorem allFound_of_toList (listed : (workspace.perform (.toList id)).1 = .values values) :
    (workspace.buffer id).allFound workspace.memory = .ok values := by
  rw [perform_answer rfl (toList_answer _)] at listed
  dsimp only at listed
  cases found : (workspace.buffer id).allFound workspace.memory with
  | error fault =>
      rw [found] at listed
      cases listed
  | ok members =>
      rw [found] at listed
      cases listed
      rfl

theorem doubles_of_toList (standing : workspace.Standing) (settled : workspace.Settled)
    (sized : 0 < (workspace.buffer id).layout.size)
    (listed : (workspace.perform (.toList id)).1 = .values values) :
    workspace.Doubles id values := by
  have found := allFound_of_toList listed
  by_cases empty : (workspace.buffer id).count = 0
  · unfold Buffer.allFound at found
    rw [empty] at found
    have nothing : values = [] := by
      cases block : (workspace.buffer id).block with
      | none =>
          rw [block] at found
          cases found
          rfl
      | some extent =>
          rw [block] at found
          cases found
          rfl
    rw [nothing]
    exact doubles_of_empty empty
  · have known : id.index < workspace.buffers.size := by
      refine Nat.lt_of_not_le fun unknown => empty ?_
      rw [buffer_eq_absent unknown]
      rfl
    have ran := Buffer.toList_answer (workspace.buffer id) workspace.memory
    rw [found] at ran
    have members := Buffer.listed_of_toList (standing.housed id) (settled id)
      (Nat.pos_of_ne_zero empty) ran
    obtain ⟨item, single⟩ := members.single
    rw [standing.list_eq single members.readable] at listed
    cases listed
    exact doubles_of_listed standing known members sized

/-! ## Bytes -/

structure DoublesContent (workspace : Workspace) (id : BufferId) : Prop where
  appended : (workspace.buffer id).RoomToDouble (workspace.doubleSize id) workspace.memory →
    (workspace.perform (.append id (.text id))).1 = .nothing ∧
      ((workspace.perform (.append id (.text id))).2.perform (.toBytes id)).1 =
        .bytes (workspace.content id ++ workspace.content id)
  refused : ¬(workspace.buffer id).RoomToDouble (workspace.doubleSize id) workspace.memory →
    (workspace.perform (.append id (.text id))).1.isShortage = true
  /-- To add a text to itself in place is to append it, in any session that has the workspace. -/
  added : ∀ session : Session, (session.adopt workspace).isText id = true →
    (session.adopt workspace).hasRealCount id = false →
    (workspace.buffer id).RoomToDouble (workspace.doubleSize id) workspace.memory →
      ∃ after, SessionM.addInPlace (.buffer id) (.buffer id) (session.adopt workspace) =
          .ok (.buffer id) after ∧
        after.workspace.content id = workspace.content id ++ workspace.content id

theorem content_of_unknown (unknown : workspace.buffers.size ≤ id.index) :
    workspace.content id = [] := by
  rw [content, buffer_eq_absent unknown]
  rfl

/-- Where a buffer has room for bytes, a session appends them as the buffer does. -/
theorem appendBytes_session {session : Session} {bytes : Bytes} {later : Buffer} {after : Memory}
    (whole : session.hasRealCount id = false) (some_bytes : bytes ≠ [])
    (ran : (session.workspace.buffer id).appendBytes bytes session.workspace.memory =
      .ok later after) :
    ∃ last, SessionM.appendBytes id bytes session = .ok () last ∧
      last.workspace = ⟨{ after with calls := [] },
        session.workspace.buffers.setIfInBounds id.index later⟩ := by
  have plain : bytes.isEmpty = false := by simpa using some_bytes
  have supplied : WorkspaceM.onBuffer id (BufferM.appendBytes bytes) session.workspace =
      .ok () ⟨after, session.workspace.buffers.setIfInBounds id.index later⟩ := by
    unfold buffer at ran
    simp only [WorkspaceM.onBuffer, BufferM.appendBytes, BufferM.replace, ran]
  simp only [SessionM.appendBytes, plain, whole, run_bind, run_get, SessionM.recount,
    SessionM.recounting, SessionM.heldCount, SessionM.onBuffer, SessionM.onWorkspace,
    run_tryCatch, run_pure, supplied, SessionM.forgetCount, run_modify, Bool.false_eq_true,
    if_false]
  exact ⟨_, rfl, rfl⟩

theorem addInPlace_self {session : Session} (text : session.isText id = true)
    (whole : session.hasRealCount id = false) :
    SessionM.addInPlace (.buffer id) (.buffer id) session =
      (do SessionM.appendBytes id (session.workspace.content id)
          return Object.buffer id : SessionM Object) session := by
  simp only [SessionM.addInPlace, SessionM.append, SessionM.textBytes, SessionM.heldBytes?,
    SessionM.content, run_bind, run_get, run_ite, run_pure, text, whole, Bool.not_true,
    Bool.false_eq_true, if_true, if_false]

theorem content_appended (standing : workspace.Standing) (settled : workspace.Settled)
    (sized : 0 < (workspace.buffer id).layout.size)
    (room : (workspace.buffer id).RoomToDouble (workspace.doubleSize id) workspace.memory) :
    ∃ later after, (workspace.buffer id).appendBytes (workspace.content id) workspace.memory =
        .ok later after ∧
      content ⟨after, workspace.buffers.setIfInBounds id.index later⟩ id =
        workspace.content id ++ workspace.content id := by
  obtain ⟨later, after, ran, doubled⟩ :=
    (Buffer.appendBytes_cases (standing.fits _) (standing.housed id) (settled id) sized).1 room
  refine ⟨later, after, ran, ?_⟩
  by_cases known : id.index < workspace.buffers.size
  · rw [content, buffer_setIfInBounds_self known]
    exact doubled
  · have unknown := Nat.le_of_not_lt known
    have behind :
        content ⟨after, workspace.buffers.setIfInBounds id.index later⟩ id = [] :=
      content_of_unknown (Nat.le_trans (Nat.le_of_eq Array.size_setIfInBounds) unknown)
    rw [content_of_unknown unknown, behind]
    rfl

/-- The calls that a session takes over from a workspace are no part of what the memory holds. -/
theorem changesWithin_adopt (session : Session) (workspace : Workspace) :
    Memory.ChangesWithin (fun _ _ => False) workspace.memory
      (session.adopt workspace).workspace.memory := by
  refine ⟨Nat.le_refl _, fun _ _ => rfl, fun _ _ _ left => left, ?_, fun _ _ _ _ => rfl⟩
  intro id fits region used known
  obtain ⟨holds, used_le⟩ := fits region used known
  exact ⟨⟨holds.storage_lt, holds.stop_le⟩, used_le⟩

theorem standing_adopt (standing : workspace.Standing) (session : Session) :
    (session.adopt workspace).workspace.Standing :=
  have quiet := changesWithin_adopt session workspace
  ⟨fun other => quiet.fits other (standing.fits other), standing.housed,
    fun other extent known => quiet.holds (standing.held other extent known)⟩

theorem settled_adopt (settled : workspace.Settled) (session : Session) :
    (session.adopt workspace).workspace.Settled :=
  fun other extent known =>
    (changesWithin_adopt session workspace).settled (settled other extent known)

theorem addInPlace_doubles {session : Session} (standing : session.workspace.Standing)
    (settled : session.workspace.Settled) (text : session.isText id = true)
    (sized : 0 < (session.workspace.buffer id).layout.size)
    (whole : session.hasRealCount id = false)
    (room : (session.workspace.buffer id).RoomToDouble (session.workspace.doubleSize id)
      session.workspace.memory) :
    ∃ last, SessionM.addInPlace (.buffer id) (.buffer id) session = .ok (.buffer id) last ∧
      last.workspace.content id =
        session.workspace.content id ++ session.workspace.content id := by
  rw [addInPlace_self text whole, run_bind]
  by_cases empty : session.workspace.content id = []
  · rw [empty]
    exact ⟨session, rfl, empty⟩
  · obtain ⟨later, after, ran, doubled⟩ := content_appended standing settled sized room
    obtain ⟨last, appended, same⟩ := appendBytes_session whole empty ran
    rw [appended]
    refine ⟨last, rfl, ?_⟩
    rw [same]
    exact doubled

theorem doublesContent_of_settled (standing : workspace.Standing) (settled : workspace.Settled)
    (sized : 0 < (workspace.buffer id).layout.size) : workspace.DoublesContent id := by
  have added (session : Session) (text : (session.adopt workspace).isText id = true)
      (whole : (session.adopt workspace).hasRealCount id = false) :=
    addInPlace_doubles (standing_adopt standing session) (settled_adopt settled session) text sized
      whole
  obtain ⟨memory, buffers⟩ := workspace
  have carried : WorkspaceM.carryOut (.append id (.text id)) ⟨memory, buffers⟩ =
      WorkspaceM.noted (WorkspaceM.onBuffer id
        (BufferM.appendBytes (content ⟨memory, buffers⟩ id))) ⟨memory, buffers⟩ := rfl
  have performed := perform_onBuffer carried
  simp only [BufferM.appendBytes, BufferM.replace] at performed
  refine ⟨?_, ?_, added⟩
  · intro room
    obtain ⟨later, after, ran, doubled⟩ := content_appended standing settled sized room
    rw [ran] at performed
    rw [performed]
    exact ⟨rfl, congrArg Answer.bytes doubled⟩
  · intro scarce
    obtain ⟨cause, after, ran, short⟩ := (Buffer.appendBytes_cases (standing.fits _)
      (standing.housed id) (settled id) sized).2 scarce
    change Buffer.appendBytes _ (content ⟨memory, buffers⟩ id) memory = _ at ran
    rw [ran] at performed
    rw [performed]
    exact short

/-! ## Runs -/

/-- After any run without a reset, of any buffer whose elements have a size and can be listed: a
text of bytes or a buffer of other items, inline or in a block, with any number of spare places. -/
theorem doubles_of_run {machine : Machine} {commands : List StoreCommand}
    (lasting : ∀ command ∈ commands, command.isReset = false)
    (sized : 0 < (((empty machine).obeyAll commands).buffer id).layout.size)
    (listed : (((empty machine).obeyAll commands).perform (.toList id)).1 = .values values) :
    ((empty machine).obeyAll commands).Doubles id values ∧
      ((empty machine).obeyAll commands).DoublesContent id := by
  have standing := standing_obeyAll (standing_empty machine) commands
  have settled := settled_obeyAll (standing_empty machine) (settled_empty machine) lasting
  exact ⟨doubles_of_toList standing settled sized listed,
    doublesContent_of_settled standing settled sized⟩

/-- A text that fills its inline storage, in an arena that has room for one block. -/
def inlineRun : List StoreCommand :=
  [.follow (.onBuffers (.newArena 8)), .follow (.onBuffers (.newText ⟨0⟩ 3)),
    .follow (.onBuffers (.append ⟨0⟩ (.bytes [97, 98, 99])))]

theorem doubles_of_run_inline :
    ((empty.obeyAll inlineRun).buffer ⟨0⟩).isInline = true ∧
      (((empty.obeyAll inlineRun).perform (.extendBy ⟨0⟩ ⟨0⟩)).2.buffer ⟨0⟩).isInline = false ∧
      (((empty.obeyAll inlineRun).perform (.extendBy ⟨0⟩ ⟨0⟩)).2.perform (.toList ⟨0⟩)).1 =
        .values [.int 97, .int 98, .int 99, .int 97, .int 98, .int 99] ∧
      ∃ after, SessionM.addInPlace (.buffer ⟨0⟩) (.buffer ⟨0⟩)
          (Session.empty.adopt (empty.obeyAll inlineRun)) = .ok (.buffer ⟨0⟩) after ∧
        after.workspace.content ⟨0⟩ = [97, 98, 99, 97, 98, 99] := by
  have listed : ((empty.obeyAll inlineRun).perform (.toList ⟨0⟩)).1 =
      .values [.int 97, .int 98, .int 99] := by decide +kernel
  have held : (empty.obeyAll inlineRun).content ⟨0⟩ = [97, 98, 99] := by decide +kernel
  obtain ⟨elements, content⟩ :=
    doubles_of_run (by decide +kernel) (by decide +kernel) listed
  refine ⟨by decide +kernel, by decide +kernel, ?_, ?_⟩
  · exact (elements.extended (.inr (by decide +kernel))).2
  · obtain ⟨after, added, doubled⟩ := content.added Session.empty (by decide +kernel)
      (by decide +kernel) (.inr (by decide +kernel))
    refine ⟨after, added, doubled.trans ?_⟩
    rw [held]
    rfl

end Workspace

end LexKit
