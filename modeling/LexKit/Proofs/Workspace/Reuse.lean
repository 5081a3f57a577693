import LexKit.Proofs.Scan.Fields
import LexKit.Proofs.Workspace.Threshold

/-!
# Repeated calls

A lexer with fields is called again and again, over a heap or over an arena that may run out. Each
call goes as it would with a new lexer. What a call obtains lies ahead of all that was there before,
and it gives back nothing else, so that the tokens of earlier calls stay as they are.
-/

set_option autoImplicit false

namespace LexKit

structure LexerCall where
  before : Workspace
  result : Except Fault (Outcome BufferId)
  after : Workspace

namespace Lexer

def call (lexer : Lexer) (fields : LexerFields BufferId) (workspace : Workspace) :
    Except Fault (Outcome BufferId) × LexerFields BufferId × Workspace :=
  (Workspace.payloadStore lexer.allocator).call lexer.rules lexer.source fields workspace

/-- Calls in a row. Each one finds the fields and the workspace as the one before left them. -/
def calls (lexer : Lexer) : Nat → LexerFields BufferId → Workspace → List LexerCall
  | 0, _, _ => []
  | count + 1, fields, workspace =>
      let (result, later, after) := lexer.call fields workspace
      ⟨workspace, result, after⟩ :: calls lexer count later after

end Lexer

namespace Workspace

variable {id : AllocatorId} {before after : Workspace}

/-! ## What one call leaves alone -/

/-- Texts were added to the workspace, and no block was given back that was there before. -/
structure Retains (id : AllocatorId) (before after : Workspace) : Prop where
  extended : Extended id before after
  returned : ∃ obtained returned,
    Called id before.memory.calls after.memory.calls obtained returned ∧
      ∀ block ∈ returned, ∃ extent, before.memory.Ahead id extent ∧ Block.ofExtent extent = block
  ahead : ∀ extent, after.memory.Ahead id extent → before.memory.Ahead id extent

theorem Retains.trans {first second third : Workspace} (left : Retains id first second)
    (right : Retains id second third) : Retains id first third := by
  obtain ⟨obtained, returned, called, own⟩ := left.returned
  obtain ⟨others, further, calledOn, also⟩ := right.returned
  refine ⟨left.extended.trans right.extended, ⟨_, _, called.trans calledOn, ?_⟩,
    fun extent ahead => left.ahead extent (right.ahead extent ahead)⟩
  intro block member
  rcases List.mem_append.mp member with member | member
  · exact own block member
  · obtain ⟨extent, ahead, same⟩ := also block member
    exact ⟨extent, left.ahead extent ahead, same⟩

private theorem changesWithin_returning (touched : StorageId → Nat → Prop) (extents : List Extent)
    (memory : Memory) : Memory.ChangesWithin touched memory (memory.returning id extents) := by
  induction extents generalizing memory with
  | nil => exact .refl touched memory
  | cons extent rest ih =>
      exact (Memory.changesWithin_record touched memory _).trans (ih _) fun _ _ _ touched => touched

/-- The workspace asked the allocator for a block and did not get it. -/
def RanOut (id : AllocatorId) (before after : Workspace) : Prop :=
  ∃ made size, after.memory.calls = made ++ before.memory.calls ∧
    AllocatorCall.allocate id size none ∈ made

private theorem held_of_internLexeme {lexeme : Lexeme Bytes}
    {result : Except Fault (Lexeme BufferId)}
    (ran : (payloadStore id).internLexeme lexeme before = (result, after)) :
    (∃ plain, result = .ok plain ∧ after = before) ∨
      ∃ payload held wrap, Held id payload before (held, after) ∧ result = held.map wrap := by
  cases carried : lexeme.payload? with
  | none =>
      obtain ⟨plain, same, -⟩ := internLexeme_plain (payloadStore id) carried before
      cases ran.symm.trans same
      exact .inl ⟨plain, rfl, rfl⟩
  | some payload =>
      obtain ⟨wrap, same, -⟩ := internLexeme_carried (payloadStore id) carried
      cases ran.symm.trans (same before)
      exact .inr ⟨payload, _, wrap, held_of_payloadStore id payload before, rfl⟩

private theorem refused_of_internLexeme {lexeme : Lexeme Bytes} {fault : Fault}
    (refused : (payloadStore id).internLexeme lexeme before = (.error fault, after)) :
    Extended id before after ∧ RanOut id before after := by
  rcases held_of_internLexeme refused with ⟨plain, other, -⟩ | ⟨payload, held, wrap, holds, same⟩
  · cases other
  · cases held with
    | ok name => cases same
    | error fault =>
        cases holds with
        | refused _ nonempty =>
            exact ⟨⟨Nat.le_refl _, fun _ _ => rfl, Memory.changesWithin_record _ _ _⟩,
              [_], _, rfl, List.mem_singleton_self _⟩

private theorem calls_of_internLexeme {lexeme : Lexeme Bytes} {stored : Lexeme BufferId}
    (interned : (payloadStore id).internLexeme lexeme before = (.ok stored, after)) :
    ∃ made, after.memory.calls = made ++ before.memory.calls := by
  rcases held_of_internLexeme interned with ⟨plain, -, rfl⟩ | ⟨payload, held, wrap, holds, same⟩
  · exact ⟨[], rfl⟩
  · cases held with
    | error fault => cases same
    | ok name =>
        obtain ⟨text, -, -, filled⟩ := filled_of_held holds
        obtain ⟨made, calls, -⟩ := filled.called
        exact ⟨made.reverse, calls⟩

/-- Payloads that are stored one after the other are kept, also when one is refused. -/
private theorem kept_of_intern {tokens : List (Token Bytes)} {done stored : List (Token BufferId)}
    {fault? : Option Fault} (fits : before.memory.Fits id)
    (kept : ∀ token ∈ done, before.KeepsPayload id token)
    (interned : (payloadStore id).intern done tokens before = (stored, fault?, after)) :
    Extended id before after ∧ (∀ token ∈ stored, after.KeepsPayload id token) ∧
      (fault? ≠ none → RanOut id before after) := by
  induction tokens generalizing done before with
  | nil =>
      cases interned
      refine ⟨.refl id after, ?_, ?_⟩
      · simpa using kept
      · simp
  | cons token rest ih =>
      unfold PayloadStore.intern at interned
      split at interned
      · rename_i lexeme between held
        obtain ⟨extended, payload, -⟩ := extended_of_internLexeme token.offset fits held
        obtain ⟨earlier, calls⟩ := calls_of_internLexeme held
        obtain ⟨onward, later, ranOut⟩ := ih (extended.changed.fits id fits) (by
          intro earlier member
          rcases List.mem_cons.mp member with rfl | member
          · exact payload
          · exact fun name named => extended.keeps (kept earlier member name named)) interned
        refine ⟨extended.trans onward, later, ?_⟩
        intro failed
        obtain ⟨made, size, same, member⟩ := ranOut failed
        refine ⟨made ++ earlier, size, ?_, List.mem_append_left _ member⟩
        rw [same, calls, List.append_assoc]
      · rename_i fault between held
        obtain ⟨extended, ranOut⟩ := refused_of_internLexeme held
        cases interned
        refine ⟨extended, ?_, fun _ => ranOut⟩
        intro earlier member name named
        exact extended.keeps (kept earlier (List.mem_reverse.mp member) name named)

/-! ## What a call comes to -/

private theorem not_ahead_of_filled {texts : List Buffer} (filled : Filled id texts before after)
    {extent : Extent} (member : extent ∈ texts.filterMap Buffer.block) :
    ¬after.memory.Ahead id extent :=
  fun ahead => (filled.beyond extent ahead).2 member

private theorem ahead_returning {extents : List Extent} {memory : Memory} {extent : Extent} :
    (memory.returning id extents).Ahead id extent ↔ memory.Ahead id extent := by
  induction extents generalizing memory with
  | nil => rfl
  | cons first rest ih => exact ih

/-- Texts that were added and given back again leave everything else alone. -/
private theorem retains_of_release {texts : List Buffer} {filled : Workspace}
    {tokens : List (Token BufferId)} (added : Filled id texts before filled)
    (extended : Extended id before filled)
    (names : tokens.filterMap Token.payload? = namesFrom before.buffers.size texts.length) :
    Retains id before ((payloadStore id).release tokens filled) := by
  have called := added.called.trans (called_release added names)
  have freed := drops_eq added.exact added.buffers_eq
  rw [← names] at freed
  refine ⟨⟨?_, ?_, ?_⟩, ⟨_, _, called, ?_⟩, ?_⟩
  · rw [PayloadStore.release, freed]
    simp
  · intro name known
    rw [PayloadStore.release, freed, buffer, buffer]
    simp [Array.getElem?_append, known]
  · rw [PayloadStore.release, freed]
    exact extended.changed.trans (changesWithin_returning _ _ _)
      fun _ _ _ touched => touched
  · -- What is given back was obtained in between, so it lay ahead before.
    intro block member
    rw [List.nil_append] at member
    obtain ⟨extent, obtained, rfl⟩ := List.mem_map.mp member
    exact ⟨extent, added.ahead extent obtained, rfl⟩
  · intro extent ahead
    rw [PayloadStore.release, freed, ahead_returning] at ahead
    exact (added.beyond extent ahead).1

private theorem retains_of_filled {texts : List Buffer} (added : Filled id texts before after)
    (extended : Extended id before after) : Retains id before after :=
  ⟨extended, ⟨_, _, added.called, by simp⟩, fun extent ahead => (added.beyond extent ahead).1⟩

/-- The tokens have payloads that are kept, and no block of theirs lies ahead. -/
structure Handed (id : AllocatorId) (tokens : List (Token BufferId)) (workspace : Workspace) :
    Prop where
  kept : ∀ token ∈ tokens, workspace.KeepsPayload id token
  behind : ∀ extent ∈ tokens.filterMap workspace.payloadBlock?, ¬workspace.memory.Ahead id extent

/-- A call retains what was there before it, however it ends. A success hands its tokens over, and a
fault can only be want of memory. -/
theorem retains_of_tokenize {rules : ScanRules} {source : Bytes}
    {result : Except Fault (Outcome BufferId)} (fits : before.memory.Fits id)
    (ran : (payloadStore id).tokenize rules source before = (result, after)) :
    Retains id before after ∧ (∀ fault, result = .error fault → RanOut id before after) ∧
      ∀ tokens, result = .ok (.success tokens) → Handed id tokens after := by
  unfold PayloadStore.tokenize at ran
  dsimp only at ran
  cases interned : (payloadStore id).intern [] (Scan.run rules source).tokens before with
  | mk stored rest =>
      obtain ⟨fault?, filled⟩ := rest
      obtain ⟨texts, added, names, counts⟩ := interned_of_intern (held_of_payloadStore id) interned
      obtain ⟨extended, kept, ranOut⟩ := kept_of_intern fits (by simp) interned
      -- Two of the three ways out give back exactly what was stored; only a success keeps it.
      have released := retains_of_release added extended names
      rw [interned] at ran
      cases fault? with
      | some fault =>
          cases ran
          refine ⟨released, ?_, nofun⟩
          rintro _ -
          obtain ⟨made, size, calls, member⟩ := ranOut (Option.some_ne_none fault)
          obtain ⟨frees, callsOn, -⟩ := called_release added names
          refine ⟨frees.reverse ++ made, size, ?_, List.mem_append_right _ member⟩
          rw [callsOn, calls, List.append_assoc]
      | none =>
          cases ended : (Scan.run rules source).ending with
          | failed offset problem =>
              rw [ended] at ran
              cases ran
              exact ⟨released, nofun, nofun⟩
          | complete =>
              rw [ended] at ran
              cases ran
              refine ⟨retains_of_filled added extended, nofun, ?_⟩
              rintro _ ⟨⟩
              refine ⟨kept, fun extent member => ?_⟩
              rw [(owned_of_filled added names (counts rfl)).blocks_eq] at member
              exact not_ahead_of_filled added member

/-- The tokens are what they were: their buffers are the same, with the same content, and no block
of theirs was given back in between. -/
structure Untouched (id : AllocatorId) (tokens : List (Token BufferId))
    (earlier later : Workspace) : Prop where
  buffer_eq : ∀ token ∈ tokens, ∀ name, token.payload? = some name →
    later.buffer name = earlier.buffer name
  contents_eq : later.tokenContents tokens = earlier.tokenContents tokens
  unreturned : ∃ obtained returned,
    Called id earlier.memory.calls later.memory.calls obtained returned ∧
      ∀ extent ∈ tokens.filterMap earlier.payloadBlock?, Block.ofExtent extent ∉ returned

private theorem ofExtent_injective : Function.Injective Block.ofExtent := by
  rintro ⟨storage, start, size⟩ ⟨other, begins, length⟩ same
  simp only [Block.ofExtent, Block.mk.injEq, Option.some.injEq, Int.ofNat_inj] at same
  obtain ⟨rfl, rfl, rfl⟩ := same
  rfl

theorem Handed.untouched {tokens : List (Token BufferId)} {later : Workspace}
    (handed : Handed id tokens before) (retained : Retains id before later) :
    Untouched id tokens before later := by
  obtain ⟨obtained, returned, called, own⟩ := retained.returned
  refine ⟨?_, ?_, obtained, returned, called, ?_⟩
  · intro token member name named
    exact retained.extended.buffer_eq name (handed.kept token member name named).index_lt
  · apply List.map_congr_left
    intro token member
    exact retained.extended.token_eq (handed.kept token member)
  · intro extent member given
    obtain ⟨other, ahead, same⟩ := own _ given
    rw [ofExtent_injective same] at ahead
    exact handed.behind extent member ahead

/-! ## Calls in a row -/

/-- The call goes as the first call of a new lexer in the same place. -/
structure LikeFirst (lexer : Lexer) (call : LexerCall) : Prop where
  first : ∃ left, lexer.call .initial call.before = (call.result, left, call.after)
  tokenized : ∀ outcome, call.result = .ok outcome →
    WorkspaceM.tokenize lexer call.before = .ok outcome call.after
  ranOut : ∀ fault, call.result = .error fault → RanOut lexer.allocator call.before call.after
  contents_eq : ∀ outcome, call.result = .ok outcome →
    ∀ (other : AllocatorId) (elsewhere later : Workspace) same left,
      elsewhere.memory.Fits other →
      Lexer.call ⟨lexer.source, other, lexer.rules⟩ .initial elsewhere = (.ok same, left, later) →
        call.after.outcomeContents outcome = later.outcomeContents same

private theorem tokenize_of_call {lexer : Lexer} {fields left : LexerFields BufferId}
    {result : Except Fault (Outcome BufferId)}
    (ran : lexer.call fields before = (result, left, after)) :
    (payloadStore lexer.allocator).tokenize lexer.rules lexer.source before = (result, after) := by
  unfold Lexer.call at ran
  rw [← PayloadStore.call_eq _ _ _ fields, ran]

private theorem likeFirst_of_call {lexer : Lexer} {fields left : LexerFields BufferId}
    {result : Except Fault (Outcome BufferId)} (fits : before.memory.Fits lexer.allocator)
    (ran : lexer.call fields before = (result, left, after)) :
    LikeFirst lexer ⟨before, result, after⟩ := by
  have tokenized := tokenize_of_call ran
  have returns {lexer : Lexer} {fields left : LexerFields BufferId} {before after : Workspace}
      {outcome : Outcome BufferId} (ran : lexer.call fields before = (.ok outcome, left, after)) :
      WorkspaceM.tokenize lexer before = .ok outcome after := by
    rw [WorkspaceM.tokenize, tokenize_of_call ran]
  refine ⟨?_, ?_, (retains_of_tokenize fits tokenized).2.1, ?_⟩
  · cases fresh : lexer.call .initial before with
    | mk other rest =>
        obtain ⟨kept, later⟩ := rest
        cases tokenized.symm.trans (tokenize_of_call fresh)
        exact ⟨kept, rfl⟩
  · rintro outcome rfl
    exact returns ran
  · rintro outcome rfl other elsewhere later same kept room fresh
    have here := outcomeContents_of_tokenize fits (returns ran)
    exact here.trans (outcomeContents_of_tokenize room (returns fresh)).symm

private theorem history_of_calls {lexer : Lexer} (count : Nat) (fields : LexerFields BufferId)
    (fits : before.memory.Fits lexer.allocator) :
    (∀ call ∈ lexer.calls count fields before,
      LikeFirst lexer call ∧ Retains lexer.allocator before call.after) ∧
    (lexer.calls count fields before).Pairwise fun earlier later =>
      ∀ tokens, earlier.result = .ok (.success tokens) →
        Untouched lexer.allocator tokens earlier.after later.after := by
  induction count generalizing fields before with
  | zero => exact ⟨by simp [Lexer.calls], .nil⟩
  | succ count ih =>
      cases ran : lexer.call fields before with
      | mk result rest =>
          obtain ⟨left, after⟩ := rest
          obtain ⟨retained, -, handed⟩ := retains_of_tokenize fits (tokenize_of_call ran)
          obtain ⟨each, pairs⟩ := ih left (retained.extended.changed.fits _ fits)
          simp only [Lexer.calls, ran]
          constructor
          · intro call member
            rcases List.mem_cons.mp member with rfl | member
            · exact ⟨likeFirst_of_call fits ran, retained⟩
            · obtain ⟨like, onward⟩ := each call member
              exact ⟨like, retained.trans onward⟩
          · refine List.pairwise_cons.mpr ⟨?_, pairs⟩
            -- Everything up to the end of the later call retains what the first one handed out.
            intro later member tokens succeeded
            exact (handed tokens succeeded).untouched (each later member).2

/-- Whatever is left in the fields of a lexer, and whatever its earlier calls returned or raised,
each call goes as the first call of a new lexer would, and no call touches the tokens that an
earlier one returned. -/
theorem history_of_lexer (lexer : Lexer) (count : Nat) (fields : LexerFields BufferId)
    {before : Workspace} (fits : before.memory.Fits lexer.allocator) :
    (∀ call ∈ lexer.calls count fields before, LikeFirst lexer call) ∧
    (lexer.calls count fields before).Pairwise fun earlier later =>
      ∀ tokens, earlier.result = .ok (.success tokens) →
        Untouched lexer.allocator tokens earlier.after later.after := by
  obtain ⟨each, pairs⟩ := history_of_calls count fields fits
  exact ⟨fun call member => (each call member).1, pairs⟩

/-- The arena has room for the name in the first two calls and not in the third. The fields name, as
left over from before, the buffer that the first call fills. -/
theorem history_of_lexer_small_arena :
    let lexer : Lexer := ⟨Utf8.encode "ab +", ⟨0⟩, .default⟩
    let fields : LexerFields BufferId :=
      ⟨3, [⟨.identifier ⟨0⟩, 0⟩], .failed, ⟨2, "left over"⟩⟩
    let before : Workspace := ⟨.ofArena 5 0, #[]⟩
    before.memory.Fits ⟨0⟩ ∧
      (lexer.calls 3 fields before).map (·.result.toOption.isSome) = [true, true, false] ∧
      (∀ call ∈ lexer.calls 3 fields before, LikeFirst lexer call) ∧
      (lexer.calls 3 fields before).Pairwise fun earlier later =>
        ∀ tokens, earlier.result = .ok (.success tokens) →
          Untouched ⟨0⟩ tokens earlier.after later.after := by
  intro lexer fields before
  have fits : before.memory.Fits ⟨0⟩ := Memory.fits_ofArena (Nat.zero_le 5) .unlimited
  have results : (lexer.calls 3 fields before).map (·.result.toOption.isSome) =
      [true, true, false] := by
    decide +kernel
  exact ⟨fits, results, history_of_lexer lexer 3 fields fits⟩

end Workspace

end LexKit
