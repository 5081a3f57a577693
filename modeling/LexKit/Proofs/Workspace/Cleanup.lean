import LexKit.Proofs.Workspace.Holding

/-!
# Cleanup of tokenizations

A tokenization that gives no tokens, because the scan failed or because a request was refused, has
given back each block that it obtained, once and in the order in which it obtained them, and no
other block. One that gives tokens leaves them the blocks it obtained. Releasing the tokens gives
these back, and releasing them again does nothing.
-/

set_option autoImplicit false

namespace LexKit

namespace Workspace

open Running

/-! ## Giving texts back -/

private theorem append_cons (base : Array Buffer) (text : Buffer) (rest : List Buffer) :
    base ++ (text :: rest).toArray = base.push text ++ rest.toArray := by
  simp

theorem map_buffer_namesFrom {workspace : Workspace} {base : Array Buffer} {texts : List Buffer}
    (same : workspace.buffers = base ++ texts.toArray) :
    (namesFrom base.size texts.length).map workspace.buffer = texts := by
  induction texts generalizing base with
  | nil => rfl
  | cons text rest ih =>
      rw [append_cons] at same
      have later := ih same
      rw [Array.size_push] at later
      rw [List.length_cons, namesFrom_succ, List.map_cons, later]
      simp [buffer, same]

theorem exact_emptied {id : AllocatorId} {text : Buffer} (exact : text.Exact id) :
    text.emptied.Exact id :=
  ⟨exact.allocator_eq, rfl, rfl, by simp [Buffer.emptied]⟩

private theorem drop_eq {id : AllocatorId} {text : Buffer} (exact : text.Exact id)
    (base : Array Buffer) (rest : List Buffer) (memory : Memory) :
    (payloadStore id).drop ⟨base.size⟩ ⟨memory, base ++ (text :: rest).toArray⟩ =
      ⟨memory.returning id text.block.toList, base.push text.emptied ++ rest.toArray⟩ := by
  have released := Buffer.release_of_not_inline exact.allocated memory
  rw [exact.allocator_eq] at released
  have found : (base ++ (text :: rest).toArray).getD base.size absentBuffer = text := by simp
  have placed : (base ++ (text :: rest).toArray).setIfInBounds base.size text.emptied =
      base.push text.emptied ++ rest.toArray := by
    simp
  simp only [payloadStore, WorkspaceM.onBuffer, BufferM.release, BufferM.replace, found, released,
    placed]

/-- Dropping the texts under their names gives their blocks back, in order, and leaves the buffers
in front of them as they are. -/
theorem drops_eq {id : AllocatorId} {texts : List Buffer} (exact : ∀ text ∈ texts, text.Exact id)
    {base : Array Buffer} {workspace : Workspace}
    (same : workspace.buffers = base ++ texts.toArray) :
    (namesFrom base.size texts.length).foldl
        (fun workspace name => (payloadStore id).drop name workspace) workspace =
      ⟨workspace.memory.returning id (texts.filterMap Buffer.block),
        base ++ (texts.map Buffer.emptied).toArray⟩ := by
  obtain ⟨memory, buffers⟩ := workspace
  dsimp only at same
  subst same
  induction texts generalizing base memory with
  | nil => rfl
  | cons text rest ih =>
      have own := exact text List.mem_cons_self
      have others := fun other member => exact other (List.mem_cons_of_mem text member)
      have later := @ih others (base.push text.emptied) (memory.returning id text.block.toList)
      rw [Array.size_push] at later
      rw [List.length_cons, namesFrom_succ, List.foldl_cons, drop_eq own, later,
        ← Memory.returning_append]
      cases known : text.block with
      | none => simp [known]
      | some extent => simp [known]

private theorem onBuffer_release (id : AllocatorId) (name : BufferId) (workspace : Workspace) :
    WorkspaceM.onBuffer name BufferM.release workspace =
      .ok () ((payloadStore id).drop name workspace) := by
  obtain ⟨memory, buffers⟩ := workspace
  obtain ⟨after, released, -⟩ :=
    Buffer.release_eq (buffers.getD name.index absentBuffer) memory
  simp only [payloadStore, WorkspaceM.onBuffer, BufferM.release, BufferM.replace, released]

/-- Releasing tokens is dropping their payloads; it never fails. -/
theorem releaseTokens_eq (id : AllocatorId) (tokens : List (Token BufferId))
    (workspace : Workspace) :
    WorkspaceM.releaseTokens tokens workspace =
      .ok () ((payloadStore id).release tokens workspace) := by
  induction tokens generalizing workspace with
  | nil => rfl
  | cons token rest ih =>
      have first : WorkspaceM.releaseTokens (token :: rest) workspace =
          (WorkspaceM.releasePayload token.payload? >>= fun _ =>
            WorkspaceM.releaseTokens rest) workspace := rfl
      rw [first, run_bind]
      cases carried : token.payload? with
      | none =>
          rw [WorkspaceM.releasePayload, run_pure]
          simpa [PayloadStore.release, carried] using ih workspace
      | some name =>
          rw [WorkspaceM.releasePayload, onBuffer_release id]
          simpa [PayloadStore.release, carried] using ih ((payloadStore id).drop name workspace)

/-! ## What a tokenization owns and what it cleans up -/

/-- All blocks that were obtained have been given back, once each and in order, and no others. -/
def CleanedUp (id : AllocatorId) (before after : Workspace) : Prop :=
  ∃ (between : List AllocatorCall) (obtained : List Extent), obtained.Nodup ∧
    Called id before.memory.calls between obtained [] ∧
    Called id between after.memory.calls [] (obtained.map Block.ofExtent)

def payloadBlock? (workspace : Workspace) (token : Token BufferId) : Option Extent :=
  token.payload?.bind fun name => (workspace.buffer name).block

/-- The blocks that were obtained are those of the payloads, in order and each as long as its
payload. Releasing the tokens gives back these blocks, once; releasing them again does nothing. -/
structure Owned (id : AllocatorId) (payloads : List Bytes) (tokens : List (Token BufferId))
    (before after : Workspace) (obtained : List Extent) : Prop where
  called : Called id before.memory.calls after.memory.calls obtained []
  nodup : obtained.Nodup
  blocks_eq : tokens.filterMap after.payloadBlock? = obtained
  counts_eq : (tokens.filterMap Token.payload?).map (fun name => (after.buffer name).count) =
    payloads.map List.length
  exact : ∀ token ∈ tokens, ∀ name, token.payload? = some name → (after.buffer name).Exact id
  released : ∃ freed, WorkspaceM.releaseTokens tokens after = .ok () freed ∧
    Called id after.memory.calls freed.memory.calls [] (obtained.map Block.ofExtent) ∧
    WorkspaceM.releaseTokens tokens freed = .ok () freed

end Workspace

namespace WorkspaceM

/-- A tokenization over an allocator that may refuse any request. -/
def tokenizeRefusing (refuses : List AllocatorCall → Nat → Option Fault) (lexer : Lexer) :
    WorkspaceM (Outcome BufferId) := fun workspace =>
  match (Workspace.refusingStore refuses lexer.allocator).tokenize lexer.rules lexer.source
      workspace with
  | (.ok outcome, after) => .ok outcome after
  | (.error fault, after) => .error fault after

theorem tokenizeRefusing_never : tokenizeRefusing (fun _ _ => none) = tokenize := by
  funext lexer workspace
  rw [tokenizeRefusing, Workspace.refusingStore_never]
  rfl

end WorkspaceM

namespace Workspace

variable {id : AllocatorId} {texts : List Buffer} {before filled : Workspace}
  {tokens : List (Token BufferId)}

/-- Releasing tokens gives back the blocks of their payloads, each once and in order, and obtains
nothing. -/
theorem called_release (added : Filled id texts before filled)
    (names : tokens.filterMap Token.payload? = namesFrom before.buffers.size texts.length) :
    Called id filled.memory.calls ((payloadStore id).release tokens filled).memory.calls []
      ((texts.filterMap Buffer.block).map Block.ofExtent) := by
  rw [PayloadStore.release, names, drops_eq added.exact added.buffers_eq]
  exact Memory.called_returning id _ filled.memory

theorem cleanedUp_of_filled (added : Filled id texts before filled)
    (names : tokens.filterMap Token.payload? = namesFrom before.buffers.size texts.length) :
    CleanedUp id before ((payloadStore id).release tokens filled) :=
  ⟨filled.memory.calls, texts.filterMap Buffer.block, added.nodup, added.called,
    called_release added names⟩

private theorem filterMap_payloadBlock (workspace : Workspace) (tokens : List (Token BufferId)) :
    tokens.filterMap workspace.payloadBlock? =
      ((tokens.filterMap Token.payload?).map workspace.buffer).filterMap Buffer.block := by
  rw [List.filterMap_map, List.filterMap_filterMap]
  rfl

private theorem release_twice (added : Filled id texts before filled)
    (names : tokens.filterMap Token.payload? = namesFrom before.buffers.size texts.length) :
    (payloadStore id).release tokens ((payloadStore id).release tokens filled) =
      (payloadStore id).release tokens filled := by
  have exact : ∀ text ∈ texts.map Buffer.emptied, text.Exact id := by
    intro text member
    obtain ⟨full, also, rfl⟩ := List.mem_map.mp member
    exact exact_emptied (added.exact full also)
  have again := drops_eq exact
    (show (Workspace.mk (filled.memory.returning id (texts.filterMap Buffer.block))
      (before.buffers ++ (texts.map Buffer.emptied).toArray)).buffers = _ from rfl)
  rw [List.length_map] at again
  have nothing : (texts.map Buffer.emptied).filterMap Buffer.block = [] := by
    simp [Buffer.emptied]
  have same : (texts.map Buffer.emptied).map Buffer.emptied = texts.map Buffer.emptied := by
    simp [Buffer.emptied]
  simp only [PayloadStore.release, names]
  rw [drops_eq added.exact added.buffers_eq, again, nothing, same]
  rfl

/-- Payloads that were stored one after the other own their blocks: each has the length of its text,
and no two share a byte. -/
theorem owned_of_filled {payloads : List Bytes} (added : Filled id texts before filled)
    (names : tokens.filterMap Token.payload? = namesFrom before.buffers.size texts.length)
    (counts : texts.map Buffer.count = payloads.map List.length) :
    Owned id payloads tokens before filled (texts.filterMap Buffer.block) := by
  have found := map_buffer_namesFrom added.buffers_eq
  rw [← names] at found
  refine ⟨added.called, added.nodup, ?_, ?_, ?_, ?_⟩
  · rw [filterMap_payloadBlock, found]
  · rw [← counts, ← found, List.map_map]
    rfl
  · intro token member name carried
    have named := List.mem_filterMap.mpr ⟨token, member, carried⟩
    have text : filled.buffer name ∈ (tokens.filterMap Token.payload?).map filled.buffer :=
      List.mem_map_of_mem named
    rw [found] at text
    exact added.exact _ text
  · refine ⟨_, releaseTokens_eq id tokens filled, called_release added names, ?_⟩
    rw [releaseTokens_eq id, release_twice added names]

/-- What a tokenization comes to: it owns what it obtained, or has cleaned up. -/
def Settles (lexer : Lexer) (before : Workspace) :
    EStateM.Result Fault Workspace (Outcome BufferId) → Prop
  | .ok (.success tokens) after => ∃ obtained,
      Owned lexer.allocator
        ((Scan.run lexer.rules lexer.source).tokens.filterMap Token.payload?)
        tokens before after obtained
  | .ok (.failure _) after => CleanedUp lexer.allocator before after
  | .error _ after => CleanedUp lexer.allocator before after

private theorem settles_of_tokenizeRefusing (refuses : List AllocatorCall → Nat → Option Fault)
    (lexer : Lexer) (before : Workspace) :
    Settles lexer before (WorkspaceM.tokenizeRefusing refuses lexer before) := by
  unfold WorkspaceM.tokenizeRefusing PayloadStore.tokenize
  dsimp only
  cases ran : (refusingStore refuses lexer.allocator).intern []
      (Scan.run lexer.rules lexer.source).tokens before with
  | mk tokens rest =>
      obtain ⟨fault?, filled⟩ := rest
      obtain ⟨texts, added, names, counts⟩ :=
        interned_of_intern (held_of_refusingStore refuses lexer.allocator) ran
      have cleaned := cleanedUp_of_filled added names
      cases fault? with
      | some fault => exact cleaned
      | none =>
          cases (Scan.run lexer.rules lexer.source).ending with
          | complete => exact ⟨_, owned_of_filled added names (counts rfl)⟩
          | failed offset problem => exact cleaned

/-- Whatever requests the allocator refuses, a tokenization that gives tokens leaves them exactly
the blocks that it obtained, and one that does not has given all of them back. -/
theorem settles_of_tokenize (lexer : Lexer) (before : Workspace) :
    Settles lexer before (WorkspaceM.tokenize lexer before) ∧
      ∀ refuses, Settles lexer before (WorkspaceM.tokenizeRefusing refuses lexer before) := by
  refine ⟨?_, fun refuses => settles_of_tokenizeRefusing refuses lexer before⟩
  rw [← WorkspaceM.tokenizeRefusing_never]
  exact settles_of_tokenizeRefusing _ lexer before

end Workspace

end LexKit
