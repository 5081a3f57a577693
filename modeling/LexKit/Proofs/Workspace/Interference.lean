import LexKit.Proofs.Workspace.Confinement
import LexKit.Text.Pieces

/-!
# Buffers do not interfere

Whatever is done to other buffers, a buffer shows the same length, elements and bytes, also when an
operation fails half way. This holds of buffers that share heaps and arenas, however they came
about: made, copied, moved out, joined, cut or scanned. A step leaves alone what it is not directed
at, and a run does by induction. The only step left out is to write a value to an element that ends
with counted bytes without room for their count: there the count is written over what is next to
the element.
-/

set_option autoImplicit false

namespace LexKit

inductive Content where
  | bytes (value : Bytes)
  | text (source : BufferId)
deriving DecidableEq, Repr

inductive WorkspaceCommand where
  | onBuffers (command : BufferCommand)
  | textOf (allocator : AllocatorId) (content : Content)
  | concat (allocator : AllocatorId) (separator : Content) (parts : List Content)
  | split (allocator : AllocatorId) (delimiter : UInt8) (content : Content)
  | splitLines (allocator : AllocatorId) (content : Content)
  | tokenize (lexer : Lexer)
  | releaseTokens (tokens : List (Token BufferId))
  | close (allocator : AllocatorId)

/-- The bytes of a value stay in the element, or elements have no bytes and take no value. -/
def Layout.isConfined (layout : Layout) : Bool :=
  layout.size == 0 || layout.isContained

theorem Layout.snug_of_isConfined {layout : Layout} (read : layout.IsRead)
    (confined : layout.isConfined = true) : layout.Snug := by
  obtain ⟨pattern, read⟩ := read
  intro sized offset type single
  have sized := Nat.ne_of_gt sized
  simp only [isConfined, Bool.or_eq_true, beq_iff_eq, sized, false_or] at confined
  exact (contains_of_isContained read single sized confined).written_le

namespace BufferCommand

def written? : BufferCommand → Option BufferId
  | .push id _ | .extend id _ | .extendBy id _ | .append id _ | .set id _ _ => some id
  | _ => none

def target? : BufferCommand → Option BufferId
  | .push id _ | .extend id _ | .extendBy id _ | .append id _ | .set id _ _ | .pop id | .clear id
  | .reserve id _ | .resize id _ | .take id | .release id => some id
  | _ => none

def asked? : BufferCommand → Option BufferId
  | .length id | .get id _ | .toList id | .toBytes id => some id
  | _ => none

end BufferCommand

namespace WorkspaceCommand

def isConfined (workspace : Workspace) : WorkspaceCommand → Bool
  | .onBuffers command =>
      command.written?.all fun id => (workspace.buffer id).layout.isConfined
  | _ => true

def targets : WorkspaceCommand → List BufferId
  | .onBuffers command => command.target?.toList
  | .releaseTokens tokens => tokens.filterMap Token.payload?
  | _ => []

end WorkspaceCommand

namespace Workspace

def bytesOf (workspace : Workspace) : Content → Bytes
  | .bytes value => value
  | .text source => workspace.content source

end Workspace

namespace WorkspaceM

def follow : WorkspaceCommand → WorkspaceM Unit
  | .onBuffers command => discard (carryOut command)
  | .textOf allocator content => do
      discard (textOfBytes allocator ((← get).bytesOf content))
  | .concat allocator separator parts => do
      let workspace ← get
      discard (concat allocator (workspace.bytesOf separator) (parts.map workspace.bytesOf))
  | .split allocator delimiter content => do
      discard (textsOf allocator (Text.split delimiter ((← get).bytesOf content)))
  | .splitLines allocator content => do
      discard (textsOf allocator (Text.splitLines ((← get).bytesOf content)))
  | .tokenize lexer => discard (tokenize lexer)
  | .releaseTokens tokens => releaseTokens tokens
  | .close allocator => onMemory (Memory.close allocator)

end WorkspaceM

namespace Workspace

open Running

variable {workspace first second : Workspace} {id : BufferId} {sure : Prop}

/-- The workspace behind commands one after the other, failed ones included. -/
def followAll (workspace : Workspace) (commands : List WorkspaceCommand) : Workspace :=
  commands.foldl (fun workspace command => final (WorkspaceM.follow command workspace)) workspace

/-- Throughout the run, no value that is written can reach out of an element. -/
def confinesAll (workspace : Workspace) : List WorkspaceCommand → Bool
  | [] => true
  | command :: rest =>
      command.isConfined workspace &&
        confinesAll (final (WorkspaceM.follow command workspace)) rest

/-! ## Looking at buffers -/

theorem get_answer (index : Int) (state : BufferState) :
    BufferM.get (.int index) state = answer (state.buffer.found state.memory (.int index)) state :=
  observe_answer (Buffer.get_answer state.buffer (.int index) state.memory)

theorem toList_answer (state : BufferState) :
    BufferM.toList state = answer (state.buffer.allFound state.memory) state :=
  observe_answer (Buffer.toList_answer state.buffer state.memory)

theorem Undisturbed.answer_eq (undisturbed : Undisturbed first second id)
    (before : first.Standing) (after : second.Standing) {query : BufferCommand}
    (asked : query.asked? = some id) :
    (second.perform query).1 = (first.perform query).1 := by
  have held : ∀ extent, (first.buffer id).block = some extent →
      first.memory.Holds extent ∧ second.memory.Holds extent := by
    intro extent known
    have later := known
    rw [← undisturbed.buffer_eq] at later
    exact ⟨before.held id extent known, after.held id extent later⟩
  cases query with
  | length other =>
      cases asked
      exact congrArg (fun buffer => Answer.count buffer.count) undisturbed.buffer_eq
  | get other index =>
      cases asked
      rw [perform_answer rfl (get_answer index _), perform_answer rfl (get_answer index _)]
      dsimp only
      rw [undisturbed.buffer_eq,
        Buffer.found_congr (before.housed id) held undisturbed.byteAt_eq]
  | toList other =>
      cases asked
      rw [perform_answer rfl (toList_answer _), perform_answer rfl (toList_answer _)]
      dsimp only
      rw [undisturbed.buffer_eq,
        Buffer.allFound_congr (before.housed id) held undisturbed.byteAt_eq]
  | toBytes other =>
      cases asked
      have content : second.content id = first.content id := by
        unfold content Buffer.content
        rw [undisturbed.buffer_eq, Buffer.rawBytes_eq fun extent known => (held extent known).1,
          Buffer.rawBytes_eq fun extent known => (held extent known).2,
          funext undisturbed.byteAt_eq]
      exact congrArg Answer.bytes content
  | _ => cases asked

/-! ## Steps -/

theorem secures_asked {α : Type} {operation : BufferM α} {found : Except Fault α}
    (standing : workspace.Standing)
    (ran : operation ⟨workspace.buffer id, workspace.memory⟩ =
      answer found ⟨workspace.buffer id, workspace.memory⟩) :
    Secures sure [] workspace (WorkspaceM.onBuffer id operation) := by
  unfold Secures
  rw [onBuffer_answer ran, final_answer]
  exact .refl [] standing

theorem secures_carryOut (standing : workspace.Standing) (command : BufferCommand) :
    Secures ((WorkspaceCommand.onBuffers command).isConfined workspace = true)
      command.target?.toList workspace (WorkspaceM.carryOut command) := by
  have fits := standing.fits
  have housed := standing.housed
  have snug : ∀ id, command.written? = some id →
      (WorkspaceCommand.onBuffers command).isConfined workspace = true →
        (workspace.buffer id).layout.Snug := by
    intro id written confined
    simp only [WorkspaceCommand.isConfined, written, Option.all_some] at confined
    exact Layout.snug_of_isConfined (housed id).read confined
  cases command with
  | newHeap => exact (secures_newHeap standing).map _
  | newArena capacity => exact (secures_newArena standing capacity).map _
  | newBuffer allocator pattern inlineCapacity =>
      exact (secures_newBuffer standing allocator pattern inlineCapacity).map _
  | newText allocator inlineCapacity =>
      exact (secures_newText standing allocator inlineCapacity).map _
  | push id value =>
      exact (secures_onBuffer standing
        (Buffer.confines_push (fits _) (housed id) (snug id rfl) value)).map _
  | extend id values =>
      exact (secures_onBuffer standing
        (Buffer.confines_extend (fits _) (housed id) (snug id rfl) values)).map _
  | extendBy id source =>
      exact (secures_onBuffer standing (Buffer.confines_extendBy (fits _) (housed id)
        (snug id rfl) (workspace.buffer source))).map _
  | append id piece =>
      refine Secures.map ?_ _
      cases piece with
      | number value =>
          exact secures_onBuffer standing
            (Buffer.confines_push (fits _) (housed id) (snug id rfl) (.int value))
      | bytes bytes => exact secures_appendBytes standing id bytes
      | string text => exact secures_appendBytes standing id (Utf8.encode text)
      | text source => exact secures_appendBytes standing id (workspace.content source)
  | get id index => exact (secures_asked standing (get_answer index _)).map _
  | set id index value =>
      exact (secures_onBuffer standing
        (Buffer.confines_set (housed id) (snug id rfl) (.int index) value)).map _
  | pop id => exact (secures_onBuffer standing (Buffer.confines_pop (housed id))).map _
  | clear id => exact (secures_onBuffer standing (Buffer.confines_clear (housed id))).map _
  | reserve id capacity =>
      exact (secures_onBuffer standing
        (Buffer.confines_reserve (fits _) (housed id) capacity)).map _
  | resize id count =>
      exact (secures_onBuffer standing (Buffer.confines_resize (fits _) (housed id) count)).map _
  | copy id => exact (secures_copy standing id).map _
  | take id => exact (secures_take standing id).map _
  | release id => exact (secures_release standing id).map _
  | length id => exact .refl [] standing
  | toList id => exact (secures_asked standing (toList_answer _)).map _
  | toBytes id => exact .refl [] standing

theorem spares_carryOut {command : BufferCommand} (orderly : workspace.Orderly)
    (confined : (WorkspaceCommand.onBuffers command).isConfined workspace = true) :
    Spares command.target?.toList workspace (WorkspaceM.carryOut command) :=
  (secures_carryOut orderly.standing command).leaves confined orderly

theorem secures_get {α : Type} {targets : List BufferId} {next : Workspace → WorkspaceM α}
    (secures : Secures sure targets workspace (next workspace)) :
    Secures sure targets workspace (get >>= next) :=
  secures

/-- A command leaves the workspace standing, whether it fails or not, and leaves alone what it is
not directed at. -/
theorem secures_follow (standing : workspace.Standing) (command : WorkspaceCommand) :
    Secures (command.isConfined workspace = true) command.targets workspace
      (WorkspaceM.follow command) := by
  cases command with
  | onBuffers command => exact (secures_carryOut standing command).map _
  | textOf allocator content => exact secures_get ((secures_textOfBytes standing _ _).map _)
  | concat allocator separator parts => exact secures_get ((secures_concat standing _ _ _).map _)
  | split allocator delimiter content => exact secures_get ((secures_textsOf standing _ _).map _)
  | splitLines allocator content => exact secures_get ((secures_textsOf standing _ _).map _)
  | tokenize lexer => exact (secures_tokenize standing lexer).map _
  | releaseTokens tokens => exact secures_releaseTokens standing tokens
  | close allocator => exact secures_close standing allocator

/-! ## Runs -/

/-- A run of confined commands changes only what the commands name as their targets. -/
theorem leaves_followAll {commands : List WorkspaceCommand} (orderly : workspace.Orderly)
    (confined : workspace.confinesAll commands = true) :
    Leaves (commands.flatMap WorkspaceCommand.targets) workspace
      (workspace.followAll commands) := by
  induction commands generalizing workspace with
  | nil => exact .refl [] orderly
  | cons command rest ih =>
      obtain ⟨now, behind⟩ := Bool.and_eq_true_iff.mp confined
      have once : Leaves command.targets workspace (final (WorkspaceM.follow command workspace)) :=
        (secures_follow orderly.standing command).leaves now orderly
      have later := ih once.orderly behind
      rw [List.flatMap_cons]
      exact (once.mono fun id member _ => List.mem_append_left _ member).again
        (later.mono fun id member _ => List.mem_append_right _ member)

/-- Whatever is done later to other buffers, the buffer stays as it is and shows the same. -/
def Isolated (workspace : Workspace) (id : BufferId) : Prop :=
  ∀ later : List WorkspaceCommand, workspace.confinesAll later = true →
    (∀ command ∈ later, id ∉ command.targets) →
      (workspace.followAll later).buffer id = workspace.buffer id ∧
      ∀ query : BufferCommand, query.asked? = some id →
        ((workspace.followAll later).perform query).1 = (workspace.perform query).1

theorem Orderly.isolated (orderly : workspace.Orderly)
    (known : id.index < workspace.buffers.size) : workspace.Isolated id := by
  intro later confined untargeted
  have leaves := leaves_followAll orderly confined
  have undisturbed := leaves.others id known (by
    intro member
    obtain ⟨command, directed, target⟩ := List.mem_flatMap.mp member
    exact untargeted command directed target)
  exact ⟨undisturbed.buffer_eq, fun query asked =>
    undisturbed.answer_eq orderly.standing leaves.orderly.standing asked⟩

theorem perform_final (workspace : Workspace) (command : BufferCommand) :
    (workspace.perform command).2 = final (WorkspaceM.carryOut command workspace) := by
  unfold perform
  cases WorkspaceM.carryOut command workspace <;> rfl

theorem made_of_perform {command : BufferCommand} {made : BufferId}
    (moves : command = .copy id ∨ command = .take id)
    (given : (workspace.perform command).1 = .buffer made) :
    made = ⟨workspace.buffers.size⟩ ∧
      workspace.buffers.size < (workspace.perform command).2.buffers.size := by
  obtain ⟨memory, buffers⟩ := workspace
  rcases moves with rfl | rfl
  · have performed := perform_addBuffer (carryOut_copy id ⟨memory, buffers⟩)
    rw [performed] at given ⊢
    cases ran : Buffer.copy ((Workspace.mk memory buffers).buffer id) memory with
    | ok clone after =>
        rw [ran] at given
        cases given
        exact ⟨rfl, by simp⟩
    | error fault after =>
        rw [ran] at given
        cases given
  · have carried : WorkspaceM.carryOut (.take id) ⟨memory, buffers⟩ =
        (Answer.buffer <$> WorkspaceM.take id) ⟨memory, buffers⟩ := rfl
    have performed := perform_asked carried
    rw [performed] at given ⊢
    obtain ⟨after, -, -, ⟨fault, refused⟩ | taken⟩ := take_cases memory buffers id
    · rw [refused] at given
      cases given
    · rw [taken] at given ⊢
      cases given
      exact ⟨rfl, by simp⟩

/-- Every buffer of a run is isolated from the others. A copy is a buffer of its own, and so are the
two buffers after a take. -/
theorem isolated_of_run {machine : Machine} {done : List WorkspaceCommand}
    (confined : (empty machine).confinesAll done = true) :
    (∀ id : BufferId, id.index < ((empty machine).followAll done).buffers.size →
      ((empty machine).followAll done).Isolated id) ∧
    ∀ id command made, command = .copy id ∨ command = .take id →
      id.index < ((empty machine).followAll done).buffers.size →
      (((empty machine).followAll done).perform command).1 = .buffer made →
        made ≠ id ∧ (((empty machine).followAll done).perform command).2.Isolated id ∧
          (((empty machine).followAll done).perform command).2.Isolated made := by
  have orderly := (leaves_followAll (orderly_empty machine) confined).orderly
  refine ⟨fun id known => orderly.isolated known, ?_⟩
  intro id command made moves known given
  obtain ⟨rfl, larger⟩ := made_of_perform moves given
  have writes_nothing : command.written? = none := by
    rcases moves with rfl | rfl <;> rfl
  have later : Leaves command.target?.toList ((empty machine).followAll done)
      (((empty machine).followAll done).perform command).2 := by
    rw [perform_final]
    refine spares_carryOut orderly ?_
    rw [WorkspaceCommand.isConfined, writes_nothing, Option.all_none]
  refine ⟨?_, later.orderly.isolated (Nat.lt_of_lt_of_le known later.size_le),
    later.orderly.isolated larger⟩
  rintro rfl
  exact Nat.lt_irrefl _ known

/-- Buffers, texts and payloads of a scan in one arena, of which one text is read from others. -/
def sharingRun : List WorkspaceCommand :=
  [.onBuffers (.newArena 64), .onBuffers (.newBuffer ⟨0⟩ "<h" 1),
    .onBuffers (.extend ⟨0⟩ [.int 1, .int 2]), .textOf ⟨0⟩ (.bytes (Utf8.encode "a,b")),
    .split ⟨0⟩ 44 (.text ⟨1⟩), .concat ⟨0⟩ (.bytes [45]) [.text ⟨2⟩, .text ⟨3⟩],
    .tokenize ⟨Utf8.encode "x \"y\"", ⟨0⟩, .default⟩]

/-- What is done to a buffer after it was copied: it grows into a new block and is released. -/
def changingRun : List WorkspaceCommand :=
  [.onBuffers (.set ⟨0⟩ 0 (.int 9)), .onBuffers (.extendBy ⟨0⟩ ⟨0⟩), .onBuffers (.release ⟨0⟩),
    .onBuffers (.push ⟨5⟩ (.int 33)), .onBuffers (.take ⟨4⟩)]

theorem isolated_of_run_sharing :
    ((empty.followAll sharingRun).perform (.copy ⟨0⟩)).1 = .buffer ⟨7⟩ ∧
    (((empty.followAll sharingRun).perform (.copy ⟨0⟩)).2.perform (.toList ⟨7⟩)).1 =
      .values [.int 1, .int 2] ∧
    ((((empty.followAll sharingRun).perform (.copy ⟨0⟩)).2.followAll changingRun).perform
      (.toList ⟨7⟩)).1 = .values [.int 1, .int 2] := by
  have given : ((empty.followAll sharingRun).perform (.copy ⟨0⟩)).1 = .buffer ⟨7⟩ := by
    decide +kernel
  have shown : (((empty.followAll sharingRun).perform (.copy ⟨0⟩)).2.perform (.toList ⟨7⟩)).1 =
      .values [.int 1, .int 2] := by decide +kernel
  obtain ⟨-, moved⟩ := @isolated_of_run .unlimited sharingRun (by decide +kernel)
  obtain ⟨-, -, isolated⟩ := moved ⟨0⟩ (.copy ⟨0⟩) ⟨7⟩ (.inl rfl) (by decide +kernel) given
  obtain ⟨-, same⟩ := isolated changingRun (by decide +kernel) (by decide)
  exact ⟨given, shown, (same (.toList ⟨7⟩) rfl).trans shown⟩

/-- Two buffers of one arena. The elements of the first one end with counted bytes that have no room
for their count. -/
def adjoiningRun : List WorkspaceCommand :=
  [.onBuffers (.newArena 2), .onBuffers (.newBuffer ⟨0⟩ "x0p" 0),
    .onBuffers (.newBuffer ⟨0⟩ "B" 0), .onBuffers (.reserve ⟨0⟩ 1), .onBuffers (.reserve ⟨1⟩ 1),
    .onBuffers (.push ⟨1⟩ (.int 7))]

/-- A push onto the first of them changes what the second one shows. -/
theorem not_isolated_unconfined :
    ¬∀ (done later : List WorkspaceCommand) (id : BufferId),
      id.index < (empty.followAll done).buffers.size →
      (∀ command ∈ later, id ∉ command.targets) →
        ∀ query : BufferCommand, query.asked? = some id →
          (((empty.followAll done).followAll later).perform query).1 =
            ((empty.followAll done).perform query).1 := by
  intro unchanged
  have same := unchanged adjoiningRun [.onBuffers (.push ⟨0⟩ (.bytes []))] ⟨1⟩ (by decide +kernel)
    (by decide) (.get ⟨1⟩ 0) rfl
  have before : ((empty.followAll adjoiningRun).perform (.get ⟨1⟩ 0)).1 = .value (.int 7) := by
    decide +kernel
  have after : (((empty.followAll adjoiningRun).followAll
      [.onBuffers (.push ⟨0⟩ (.bytes []))]).perform (.get ⟨1⟩ 0)).1 = .value (.int 255) := by
    decide +kernel
  rw [before, after] at same
  cases same

end Workspace

end LexKit
