import LexKit.Proofs.Buffer.Content
import LexKit.Workspace.Basic

/-!
# Payloads of tokens

The payloads of a scan become texts of a workspace, one after the other. A text that was stored
keeps its content while further ones are stored, so that the stored tokens have the contents that
the scan gave them.
-/

set_option autoImplicit false

namespace LexKit.Workspace

open Running

/-- The name is that of a buffer, and the allocator does not have the buffer's block. -/
structure Keeps (workspace : Workspace) (allocator : AllocatorId) (id : BufferId) : Prop where
  index_lt : id.index < workspace.buffers.size
  settled : (workspace.buffer id).Settled workspace.memory allocator

/-- `before` turned into `after` when texts were added to it. -/
structure Extended (allocator : AllocatorId) (before after : Workspace) : Prop where
  size_le : before.buffers.size ≤ after.buffers.size
  buffer_eq : ∀ id : BufferId, id.index < before.buffers.size → after.buffer id = before.buffer id
  changed : Memory.ChangesWithin (before.memory.Remaining allocator) before.memory after.memory

namespace Extended

variable {allocator : AllocatorId} {first second third : Workspace}

theorem refl (allocator : AllocatorId) (workspace : Workspace) :
    Extended allocator workspace workspace :=
  ⟨Nat.le_refl _, fun _ _ => rfl, .refl _ _⟩

theorem trans (left : Extended allocator first second) (right : Extended allocator second third) :
    Extended allocator first third := by
  refine ⟨Nat.le_trans left.size_le right.size_le, ?_, left.changed.trans right.changed ?_⟩
  · intro id known
    rw [right.buffer_eq id (Nat.lt_of_lt_of_le known left.size_le), left.buffer_eq id known]
  · intro storage index _ remains
    exact left.changed.remaining allocator storage index remains

/-- A payload that is kept stays kept when further texts are added. -/
theorem keeps {id : BufferId} (extended : Extended allocator first second)
    (kept : first.Keeps allocator id) : second.Keeps allocator id := by
  refine ⟨Nat.lt_of_lt_of_le kept.index_lt extended.size_le, ?_⟩
  rw [extended.buffer_eq id kept.index_lt]
  intro extent known
  exact extended.changed.settled (kept.settled extent known)

theorem content_eq {id : BufferId} (extended : Extended allocator first second)
    (kept : first.Keeps allocator id) : second.content id = first.content id := by
  unfold content Buffer.content Buffer.rawBytes
  rw [extended.buffer_eq id kept.index_lt]
  cases known : (first.buffer id).block with
  | none => rfl
  | some extent =>
      have settled := kept.settled extent known
      dsimp only
      rw [extended.changed.read_eq settled.holds settled.taken]

end Extended

theorem extended_of_textOfBytes {allocator : AllocatorId} {bytes : Bytes} {before after : Workspace}
    {id : BufferId} (fits : before.memory.Fits allocator)
    (made : WorkspaceM.textOfBytes allocator bytes before = .ok id after) :
    Extended allocator before after ∧ after.Keeps allocator id ∧ after.content id = bytes := by
  obtain ⟨memory, buffers⟩ := before
  obtain ⟨text, between, ran, added⟩ := bind_eq_ok made
  unfold WorkspaceM.onMemory at ran
  dsimp only at ran
  split at ran
  · rename_i later stored
    cases ran
    cases added
    have spec := Buffer.madeText_of_ofBytes fits stored
    have named : (Workspace.mk later (buffers.push text)).buffer ⟨buffers.size⟩ = text := by
      simp [buffer]
    refine ⟨⟨?_, ?_, spec.changed⟩, ⟨?_, ?_⟩, ?_⟩
    · simp
    · intro id known
      simp [buffer, Array.getElem?_push, Nat.ne_of_lt known]
    · simp
    · rw [named]
      exact spec.settled
    · rw [content, named]
      exact spec.content_eq
  · cases ran

def KeepsPayload (workspace : Workspace) (allocator : AllocatorId) (token : Token BufferId) :
    Prop :=
  ∀ id, token.payload? = some id → workspace.Keeps allocator id

private theorem keepsPayload_of_none {workspace : Workspace} {allocator : AllocatorId}
    {token : Token BufferId} (absent : token.payload? = none) :
    workspace.KeepsPayload allocator token := by
  intro id named
  rw [absent] at named
  cases named

theorem Extended.token_eq {allocator : AllocatorId} {first second : Workspace}
    {token : Token BufferId} (extended : Extended allocator first second)
    (kept : first.KeepsPayload allocator token) :
    token.map second.content = token.map first.content := by
  obtain ⟨lexeme, offset⟩ := token
  cases lexeme with
  | symbol kind => rfl
  | number value => rfl
  | identifier name =>
      simp only [Token.map, Lexeme.map, extended.content_eq (kept name rfl)]
  | string text =>
      simp only [Token.map, Lexeme.map, extended.content_eq (kept text rfl)]

theorem hold_ok {allocator : AllocatorId} {bytes : Bytes} {before after : Workspace}
    {id : BufferId} (held : (payloadStore allocator).hold bytes before = (.ok id, after)) :
    WorkspaceM.textOfBytes allocator bytes before = .ok id after := by
  unfold payloadStore at held
  dsimp only at held
  split at held
  · rename_i made
    cases held
    exact made
  · cases held

theorem internLexeme_plain {State Handle : Type} (store : PayloadStore State Handle)
    {lexeme : Lexeme Bytes} (absent : lexeme.payload? = none) (state : State) :
    ∃ stored, store.internLexeme lexeme state = (.ok stored, state) ∧ stored.payload? = none ∧
      ∀ carry, stored.map carry = lexeme := by
  cases lexeme with
  | symbol kind => exact ⟨.symbol kind, rfl, rfl, fun _ => rfl⟩
  | number value => exact ⟨.number value, rfl, rfl, fun _ => rfl⟩
  | identifier name => cases absent
  | string text => cases absent

theorem internLexeme_carried {State Handle : Type} (store : PayloadStore State Handle)
    {lexeme : Lexeme Bytes} {payload : Bytes} (carried : lexeme.payload? = some payload) :
    ∃ wrap : Handle → Lexeme Handle,
      (∀ state, store.internLexeme lexeme state =
        ((store.hold payload state).1.map wrap, (store.hold payload state).2)) ∧
      (∀ handle, (wrap handle).payload? = some handle) ∧
      ∀ carry handle, carry handle = payload → (wrap handle).map carry = lexeme := by
  cases lexeme with
  | symbol kind => cases carried
  | number value => cases carried
  | identifier name =>
      cases carried
      exact ⟨.identifier, fun _ => rfl, fun _ => rfl,
        fun _ _ same => congrArg Lexeme.identifier same⟩
  | string text =>
      cases carried
      exact ⟨.string, fun _ => rfl, fun _ => rfl, fun _ _ same => congrArg Lexeme.string same⟩

theorem intern_keeps {State Handle : Type} {store : PayloadStore State Handle}
    {kept : State → Prop} (keeps : ∀ bytes state, kept state → kept (store.hold bytes state).2)
    (done : List (Token Handle)) (tokens : List (Token Bytes)) {state : State}
    (now : kept state) : kept (store.intern done tokens state).2.2 := by
  induction tokens generalizing done state with
  | nil => exact now
  | cons token rest ih =>
      unfold PayloadStore.intern
      cases carried : token.lexeme.payload? with
      | none =>
          obtain ⟨plain, same, -⟩ := internLexeme_plain store carried state
          rw [same]
          exact ih _ now
      | some payload =>
          obtain ⟨wrap, same, -⟩ := internLexeme_carried store carried
          have held := keeps payload state now
          rw [same]
          cases ran : store.hold payload state with
          | mk result after =>
              rw [ran] at held
              cases result with
              | error fault => exact held
              | ok name => exact ih _ held

theorem extended_of_internLexeme {allocator : AllocatorId} {lexeme : Lexeme Bytes}
    {stored : Lexeme BufferId} {before after : Workspace} (offset : Nat)
    (fits : before.memory.Fits allocator)
    (interned : (payloadStore allocator).internLexeme lexeme before = (.ok stored, after)) :
    Extended allocator before after ∧ after.KeepsPayload allocator ⟨stored, offset⟩ ∧
      stored.map after.content = lexeme := by
  cases carried : lexeme.payload? with
  | none =>
      obtain ⟨plain, same, absent, mapped⟩ :=
        internLexeme_plain (payloadStore allocator) carried before
      rw [same] at interned
      cases interned
      exact ⟨.refl allocator before, keepsPayload_of_none absent, mapped _⟩
  | some payload =>
      obtain ⟨wrap, same, named, mapped⟩ := internLexeme_carried (payloadStore allocator) carried
      rw [same] at interned
      cases held : (payloadStore allocator).hold payload before with
      | mk result later =>
          rw [held] at interned
          cases result with
          | error fault => cases interned
          | ok handle =>
              cases interned
              obtain ⟨extended, kept, content⟩ := extended_of_textOfBytes fits (hold_ok held)
              refine ⟨extended, ?_, mapped _ handle content⟩
              intro id payloadOf
              cases (named handle).symm.trans payloadOf
              exact kept

private theorem tokenContents_of_intern {allocator : AllocatorId} {tokens : List (Token Bytes)}
    {done stored : List (Token BufferId)} {before after : Workspace}
    (fits : before.memory.Fits allocator)
    (kept : ∀ token ∈ done, before.KeepsPayload allocator token)
    (interned : (payloadStore allocator).intern done tokens before = (stored, none, after)) :
    after.tokenContents stored = before.tokenContents done.reverse ++ tokens := by
  induction tokens generalizing done before with
  | nil =>
      cases interned
      rw [List.append_nil]
  | cons token rest ih =>
      unfold PayloadStore.intern at interned
      split at interned
      · rename_i lexeme between held
        obtain ⟨extended, payload, same⟩ := extended_of_internLexeme token.offset fits held
        have later := ih (extended.changed.fits allocator fits) (by
          intro earlier member
          rcases List.mem_cons.mp member with rfl | member
          · exact payload
          · exact fun id named => extended.keeps (kept earlier member id named)) interned
        have unchanged :
            between.tokenContents done.reverse = before.tokenContents done.reverse := by
          apply List.map_congr_left
          intro earlier member
          exact extended.token_eq (kept earlier (List.mem_reverse.mp member))
        have stored : Token.map between.content ⟨lexeme, token.offset⟩ = token := by
          rw [Token.map, same]
        rw [later, List.reverse_cons, tokenContents, List.map_append]
        simp only [List.map_cons, List.map_nil, stored]
        change between.tokenContents done.reverse ++ [token] ++ rest = _
        rw [unchanged, List.append_assoc, List.singleton_append]
      · cases interned

/-! ## Tokenizations -/

/-- A tokenization that succeeds is a scan that went through, and its tokens have the contents that
the scan gave them. -/
theorem run_of_tokenize_success {lexer : Lexer} {before after : Workspace}
    {tokens : List (Token BufferId)} (fits : before.memory.Fits lexer.allocator)
    (succeeded : WorkspaceM.tokenize lexer before = .ok (.success tokens) after) :
    (Scan.run lexer.rules lexer.source).ending = .complete ∧
      after.tokenContents tokens = (Scan.run lexer.rules lexer.source).tokens := by
  unfold WorkspaceM.tokenize at succeeded
  split at succeeded
  · rename_i outcome later tokenized
    cases succeeded
    unfold PayloadStore.tokenize at tokenized
    dsimp only at tokenized
    split at tokenized
    · cases tokenized
    · rename_i stored between interned
      split at tokenized
      · rename_i unfailed
        cases tokenized
        refine ⟨?_, ?_⟩
        · cases ended : (Scan.run lexer.rules lexer.source).ending with
          | complete => rfl
          | failed offset problem =>
              rw [ended] at unfailed
              cases unfailed
        · exact tokenContents_of_intern fits (by simp) interned
      · cases tokenized
  · cases succeeded

end LexKit.Workspace
