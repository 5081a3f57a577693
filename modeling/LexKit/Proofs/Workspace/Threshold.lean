import LexKit.Proofs.Workspace.Cleanup

/-!
# The room that a scan needs

A scan over an arena goes the way it goes over a heap if and only if the arena has room for all the
payloads together. Otherwise it stops at the first payload that does not fit. The arena has then
handed out exactly the payloads in front of that one, and it keeps them counted although they were
given back.
-/

set_option autoImplicit false

namespace LexKit

def payloadLengths (tokens : List (Token Bytes)) : List Nat :=
  ((tokens.filterMap Token.payload?).map List.length).filter (0 < ·)

theorem payloadLengths_plain {token : Token Bytes} (absent : token.payload? = none)
    (rest : List (Token Bytes)) : payloadLengths (token :: rest) = payloadLengths rest := by
  simp [payloadLengths, absent]

theorem payloadLengths_empty {token : Token Bytes} (carried : token.payload? = some [])
    (rest : List (Token Bytes)) : payloadLengths (token :: rest) = payloadLengths rest := by
  simp [payloadLengths, carried]

theorem payloadLengths_carried {token : Token Bytes} {payload : Bytes}
    (carried : token.payload? = some payload) (nonempty : payload ≠ [])
    (rest : List (Token Bytes)) :
    payloadLengths (token :: rest) = payload.length :: payloadLengths rest := by
  simp [payloadLengths, carried, List.length_pos_iff.mpr nonempty]

theorem payloadLengths_append (first second : List (Token Bytes)) :
    payloadLengths (first ++ second) = payloadLengths first ++ payloadLengths second := by
  simp [payloadLengths]

theorem payloadLengths_payloadless {tokens : List (Token Bytes)}
    (absent : ∀ token ∈ tokens, token.payload? = none) : payloadLengths tokens = [] := by
  rw [payloadLengths, List.filterMap_eq_nil_iff.mpr absent]
  rfl

theorem sum_payloadLengths {token : Token Bytes} {payload : Bytes}
    (carried : token.payload? = some payload) (rest : List (Token Bytes)) :
    (payloadLengths (token :: rest)).sum = payload.length + (payloadLengths rest).sum := by
  by_cases nonempty : payload = []
  · rw [nonempty] at carried ⊢
    rw [payloadLengths_empty carried, List.length_nil, Nat.zero_add]
  · rw [payloadLengths_carried carried nonempty, List.sum_cons]

theorem affords_payloadLengths {memory : Memory} {id : AllocatorId} {token : Token Bytes}
    {payload : Bytes} (carried : token.payload? = some payload) (rest : List (Token Bytes)) :
    memory.Affords id (payloadLengths (token :: rest)) ↔
      memory.Affords id (payload.length :: payloadLengths rest) := by
  by_cases nonempty : payload = []
  · rw [nonempty] at carried ⊢
    rw [payloadLengths_empty carried, List.length_nil, Memory.affords_zero_cons]
  · rw [payloadLengths_carried carried nonempty]

theorem mem_payloadLengths {tokens : List (Token Bytes)} {size : Nat} :
    size ∈ payloadLengths tokens ↔
      ∃ payload : Bytes, (∃ token ∈ tokens, token.payload? = some payload) ∧
        payload.length = size ∧ 0 < size := by
  simp only [payloadLengths, List.mem_filter, List.mem_map, List.mem_filterMap, decide_eq_true_eq]
  constructor
  · rintro ⟨⟨payload, carried, rfl⟩, positive⟩
    exact ⟨payload, carried, rfl, positive⟩
  · rintro ⟨payload, carried, rfl, positive⟩
    exact ⟨⟨payload, carried, rfl⟩, positive⟩

/-- Tokens that carry only payloads of others have no other lengths. -/
theorem payloadLengths_subset {first second : List (Token Bytes)}
    (carried : ∀ token ∈ first, token.payload? = none ∨
      ∃ other ∈ second, other.payload? = token.payload?) :
    payloadLengths first ⊆ payloadLengths second := by
  intro size member
  obtain ⟨payload, ⟨token, inside, known⟩, sized⟩ := mem_payloadLengths.mp member
  rcases carried token inside with absent | ⟨other, found, same⟩
  · exact absurd (known.symm.trans absent) (Option.some_ne_none payload)
  · exact mem_payloadLengths.mpr ⟨payload, ⟨other, found, same.trans known⟩, sized⟩

namespace Workspace

variable {id : AllocatorId} {region : Extent} {used : Nat} {before : Workspace}

/-- A payload that there is room for is held, and the allocator counts its length. -/
private theorem hold_of_affords {payload : Bytes} {rest : List Nat}
    (affords : before.memory.Affords id (payload.length :: rest)) :
    ∃ name after, (payloadStore id).hold payload before = (.ok name, after) ∧
      after.memory.Affords id rest ∧
      after.memory.allocator id = (before.memory.allocator id).spend payload.length := by
  have held := hold_eq id payload before.memory before.buffers
  by_cases nonempty : payload = []
  · subst nonempty
    exact ⟨_, _, held, Memory.affords_zero_cons.mp affords, (Allocator.spend_zero _).symm⟩
  · obtain ⟨extent, between, supplied, left⟩ :=
      Memory.allocate_of_affords (List.length_pos_iff.mpr nonempty) affords
    rw [Buffer.ofBytes_eq id nonempty, supplied] at held
    exact ⟨_, _, held, left, Memory.allocator_of_allocate supplied⟩

private theorem hold_of_not_affords {payload : Bytes}
    (lacking : ¬before.memory.Affords id [payload.length]) (room : before.memory.Affords id []) :
    ∃ after, (payloadStore id).hold payload before =
        (.error ((before.memory.allocator id).shortage payload.length), after) ∧
      after.memory.allocator id = before.memory.allocator id := by
  have nonempty : payload ≠ [] := by
    rintro rfl
    exact lacking (Memory.affords_zero_cons.mpr room)
  have held := hold_eq id payload before.memory before.buffers
  rw [Buffer.ofBytes_eq id nonempty, Memory.allocate_of_not_affords lacking] at held
  exact ⟨_, held, rfl⟩

private theorem intern_of_affords {tokens : List (Token Bytes)} (done : List (Token BufferId))
    (affords : before.memory.Affords id (payloadLengths tokens)) :
    ∃ stored after, (payloadStore id).intern done tokens before = (stored, none, after) ∧
      after.memory.allocator id =
        (before.memory.allocator id).spend (payloadLengths tokens).sum := by
  induction tokens generalizing done before with
  | nil => exact ⟨_, before, rfl, (Allocator.spend_zero _).symm⟩
  | cons token rest ih =>
      unfold PayloadStore.intern
      cases carried : token.lexeme.payload? with
      | none =>
          obtain ⟨plain, same, -⟩ := internLexeme_plain (payloadStore id) carried before
          rw [payloadLengths_plain carried] at affords ⊢
          rw [same]
          exact ih _ affords
      | some payload =>
          obtain ⟨wrap, same, -⟩ := internLexeme_carried (payloadStore id) carried
          rw [affords_payloadLengths carried] at affords
          rw [sum_payloadLengths carried, ← Allocator.spend_spend]
          obtain ⟨name, between, held, left, spent⟩ := hold_of_affords affords
          rw [same, held, ← spent]
          exact ih _ left

private theorem affords_of_intern {tokens : List (Token Bytes)}
    {done stored : List (Token BufferId)} {after : Workspace} (fits : before.memory.Fits id)
    (interned : (payloadStore id).intern done tokens before = (stored, none, after)) :
    before.memory.Affords id (payloadLengths tokens) := by
  induction tokens generalizing done before with
  | nil => exact Memory.affords_nil_of_fits fits
  | cons token rest ih =>
      unfold PayloadStore.intern at interned
      cases carried : token.lexeme.payload? with
      | none =>
          obtain ⟨plain, same, -⟩ := internLexeme_plain (payloadStore id) carried before
          rw [same] at interned
          rw [payloadLengths_plain carried]
          exact ih fits interned
      | some payload =>
          obtain ⟨wrap, same, -⟩ := internLexeme_carried (payloadStore id) carried
          rw [same] at interned
          rw [affords_payloadLengths carried]
          cases held : (payloadStore id).hold payload before with
          | mk result between =>
              rw [held] at interned
              cases result with
              | error fault => cases interned
              | ok name =>
                  obtain ⟨extended, -⟩ := extended_of_textOfBytes fits (hold_ok held)
                  exact (affords_iff_of_hold held).mpr
                    (ih (extended.changed.fits id fits) interned)

/-- Blocks of `lengths` bytes were obtained from an allocator one by one as far as there was room,
and the allocator keeps those in front of the first lack counted. -/
structure Stops (id : AllocatorId) (base : Memory) (lengths : List Nat) (fault : Fault)
    (after : Workspace) (taken : Nat) : Prop where
  inside : taken < lengths.length
  affords : base.Affords id (lengths.take taken)
  lacks : ¬base.Affords id (lengths.take (taken + 1))
  fault_eq : fault =
    ((base.allocator id).spend (lengths.take taken).sum).shortage lengths[taken]
  spent : after.memory.allocator id = (base.allocator id).spend (lengths.take taken).sum

private theorem Stops.cons {between after : Workspace} {payload : Bytes} {name : BufferId}
    {lengths : List Nat} {fault : Fault} {taken : Nat}
    (held : (payloadStore id).hold payload before = (.ok name, between))
    (spent : between.memory.allocator id = (before.memory.allocator id).spend payload.length)
    (later : Stops id between.memory lengths fault after taken) :
    Stops id before.memory (payload.length :: lengths) fault after (taken + 1) := by
  obtain ⟨inside, affords, lacks, fault_eq, used⟩ := later
  rw [spent, Allocator.spend_spend] at fault_eq used
  refine ⟨Nat.succ_lt_succ inside, (affords_iff_of_hold held).mpr affords,
    fun enough => lacks ((affords_iff_of_hold held).mp enough), ?_, ?_⟩
  · rw [List.take_succ_cons, List.sum_cons]
    exact fault_eq
  · rw [List.take_succ_cons, List.sum_cons]
    exact used

/-- Where there is no room for all payloads, the longest beginning that there is room for is
stored. -/
private theorem intern_of_shortage {tokens : List (Token Bytes)} (done : List (Token BufferId))
    (room : before.memory.Affords id [])
    (short : ¬before.memory.Affords id (payloadLengths tokens)) :
    ∃ stored fault after, (payloadStore id).intern done tokens before =
        (stored, some fault, after) ∧
      ∃ taken, Stops id before.memory (payloadLengths tokens) fault after taken := by
  induction tokens generalizing done before with
  | nil => exact absurd room short
  | cons token rest ih =>
      unfold PayloadStore.intern
      cases carried : token.lexeme.payload? with
      | none =>
          obtain ⟨plain, same, -⟩ := internLexeme_plain (payloadStore id) carried before
          rw [payloadLengths_plain carried] at short ⊢
          rw [same]
          exact ih _ room short
      | some payload =>
          obtain ⟨wrap, same, -⟩ := internLexeme_carried (payloadStore id) carried
          rw [same]
          by_cases nonempty : payload = []
          · subst nonempty
            rw [payloadLengths_empty carried] at short ⊢
            rw [show (payloadStore id).hold [] before = _ from
              hold_eq id [] before.memory before.buffers]
            exact ih _ room short
          · rw [payloadLengths_carried carried nonempty] at short ⊢
            by_cases own : before.memory.Affords id [payload.length]
            · obtain ⟨name, between, held, left, spent⟩ := hold_of_affords own
              rw [affords_iff_of_hold held] at short
              rw [held]
              obtain ⟨stored, fault, after, interned, taken, stops⟩ :=
                ih (⟨wrap name, token.offset⟩ :: done) left short
              exact ⟨stored, fault, after, interned, taken + 1, stops.cons held spent⟩
            · obtain ⟨after, held, still⟩ := hold_of_not_affords own room
              rw [held]
              exact ⟨_, _, after, rfl, 0, Nat.succ_pos _, room, own,
                by rw [List.take_zero, List.sum_nil, Allocator.spend_zero]; rfl,
                by rw [List.take_zero, List.sum_nil, Allocator.spend_zero]; exact still⟩

/-! ## Tokenizations -/

def outcomeContents (workspace : Workspace) : Outcome BufferId → Outcome Bytes
  | .success tokens => .success (workspace.tokenContents tokens)
  | .failure failure => .failure failure

def scanOutcome (scan : Scan) : Outcome Bytes :=
  match scan.ending.failure? with
  | none => .success scan.tokens
  | some failure => .failure failure

/-- A tokenization that gives an outcome gives that of the scan, with every payload stored in full.
-/
theorem outcomeContents_of_tokenize {lexer : Lexer} {after : Workspace} {outcome : Outcome BufferId}
    (fits : before.memory.Fits lexer.allocator)
    (ran : WorkspaceM.tokenize lexer before = .ok outcome after) :
    after.outcomeContents outcome = scanOutcome (Scan.run lexer.rules lexer.source) := by
  cases outcome with
  | success tokens =>
      obtain ⟨completed, contents⟩ := run_of_tokenize_success fits ran
      rw [outcomeContents, contents, scanOutcome, completed]
      rfl
  | failure failure =>
      unfold WorkspaceM.tokenize PayloadStore.tokenize at ran
      dsimp only at ran
      split at ran
      · rename_i result later tokenized
        cases ran
        split at tokenized
        · cases tokenized
        · split at tokenized
          · cases tokenized
          · rename_i named
            cases tokenized
            rw [outcomeContents, scanOutcome, named]
      · cases ran

/-- A tokenization that fails is a scan that failed. -/
theorem ending_of_tokenize_failure {lexer : Lexer} {after : Workspace} {failure : Failure}
    (fits : before.memory.Fits lexer.allocator)
    (failed : WorkspaceM.tokenize lexer before = .ok (.failure failure) after) :
    ∃ offset problem, (Scan.run lexer.rules lexer.source).ending = .failed offset problem ∧
      failure = ⟨offset, problem.message⟩ := by
  have contents := outcomeContents_of_tokenize fits failed
  unfold scanOutcome at contents
  cases ended : (Scan.run lexer.rules lexer.source).ending with
  | complete =>
      rw [ended] at contents
      cases contents
  | failed offset problem =>
      rw [ended] at contents
      cases contents
      exact ⟨offset, problem, rfl, rfl⟩

private theorem allocator_release {texts : List Buffer} {filled : Workspace}
    {tokens : List (Token BufferId)} (added : Filled id texts before filled)
    (names : tokens.filterMap Token.payload? = namesFrom before.buffers.size texts.length)
    (other : AllocatorId) :
    ((payloadStore id).release tokens filled).memory.allocator other =
      filled.memory.allocator other := by
  rw [PayloadStore.release, names, drops_eq added.exact added.buffers_eq]
  exact Memory.allocator_returning id _ filled.memory other

private theorem sizes_eq {texts : List Buffer} (exact : ∀ text ∈ texts, text.Exact id) :
    (texts.filterMap Buffer.block).map Extent.size =
      (texts.map Buffer.count).filter (0 < ·) := by
  induction texts with
  | nil => rfl
  | cons text rest ih =>
      have own := exact text List.mem_cons_self
      have later := ih fun other member => exact other (List.mem_cons_of_mem text member)
      have block_iff := own.block_iff
      have size := own.blockSize_eq
      cases known : text.block with
      | none =>
          have nothing := block_iff.mp known
          simp [known, nothing, later]
      | some extent =>
          rw [known] at block_iff
          rw [Buffer.blockSize_of_block known] at size
          have positive : 0 < text.count :=
            Nat.pos_of_ne_zero fun zero => Option.some_ne_none extent (block_iff.mpr zero)
          simp [known, size, positive, later]

/-- A scan that was given all it asked for has asked for the lengths of the payloads. -/
theorem requested_of_tokenize {lexer : Lexer} {after : Workspace} {outcome : Outcome BufferId}
    (ran : WorkspaceM.tokenize lexer before = .ok outcome after) :
    ∃ obtained returned,
      Called lexer.allocator before.memory.calls after.memory.calls obtained returned ∧
      obtained.map Extent.size =
        payloadLengths (Scan.run lexer.rules lexer.source).tokens := by
  unfold WorkspaceM.tokenize PayloadStore.tokenize at ran
  dsimp only at ran
  split at ran
  · rename_i result later tokenized
    cases ran
    split at tokenized
    · cases tokenized
    · rename_i stored filled interned
      obtain ⟨texts, added, names, counts⟩ :=
        interned_of_intern (held_of_payloadStore lexer.allocator) interned
      have sizes := sizes_eq added.exact
      rw [counts rfl] at sizes
      split at tokenized
      · cases tokenized
        exact ⟨_, _, added.called, sizes⟩
      · cases tokenized
        have called := added.called.trans (called_release added names)
        rw [List.append_nil] at called
        exact ⟨_, _, called, sizes⟩
  · cases ran

theorem tokenize_of_affords {lexer : Lexer}
    (affords : before.memory.Affords lexer.allocator
      (payloadLengths (Scan.run lexer.rules lexer.source).tokens)) :
    ∃ outcome after, WorkspaceM.tokenize lexer before = .ok outcome after ∧
      after.memory.allocator lexer.allocator = (before.memory.allocator lexer.allocator).spend
        (payloadLengths (Scan.run lexer.rules lexer.source).tokens).sum := by
  obtain ⟨stored, filled, interned, now⟩ := intern_of_affords [] affords
  obtain ⟨texts, added, names, -⟩ :=
    interned_of_intern (held_of_payloadStore lexer.allocator) interned
  simp only [WorkspaceM.tokenize, PayloadStore.tokenize, interned]
  cases (Scan.run lexer.rules lexer.source).ending with
  | complete => exact ⟨_, _, rfl, now⟩
  | failed offset problem =>
      exact ⟨_, _, rfl, (allocator_release added names lexer.allocator).trans now⟩

/-- A tokenization that came to its end had room for its payloads. -/
theorem affords_of_tokenize {lexer : Lexer} {after : Workspace} {outcome : Outcome BufferId}
    (fits : before.memory.Fits lexer.allocator)
    (ran : WorkspaceM.tokenize lexer before = .ok outcome after) :
    before.memory.Affords lexer.allocator
      (payloadLengths (Scan.run lexer.rules lexer.source).tokens) := by
  unfold WorkspaceM.tokenize PayloadStore.tokenize at ran
  dsimp only at ran
  split at ran
  · rename_i result later tokenized
    split at tokenized
    · cases tokenized
    · rename_i stored between interned
      exact affords_of_intern fits interned
  · cases ran

/-- The payloads in front of the one that there is no room for are given back, but an arena counts
them. -/
theorem tokenize_of_shortage {lexer : Lexer} (fits : before.memory.Fits lexer.allocator)
    (short : ¬before.memory.Affords lexer.allocator
      (payloadLengths (Scan.run lexer.rules lexer.source).tokens)) :
    ∃ fault after taken, WorkspaceM.tokenize lexer before = .error fault after ∧
      Stops lexer.allocator before.memory
        (payloadLengths (Scan.run lexer.rules lexer.source).tokens) fault after taken := by
  obtain ⟨stored, fault, filled, interned, taken, stops⟩ :=
    intern_of_shortage [] (Memory.affords_nil_of_fits fits) short
  obtain ⟨texts, added, names, -⟩ :=
    interned_of_intern (held_of_payloadStore lexer.allocator) interned
  refine ⟨fault, (payloadStore lexer.allocator).release stored filled, taken, ?_, ?_⟩
  · simp only [WorkspaceM.tokenize, PayloadStore.tokenize, interned]
  · exact { stops with
      spent := (allocator_release added names lexer.allocator).trans stops.spent }

/-- A heap counted all that it was asked for. -/
theorem countable_of_tokenize {lexer : Lexer} {after : Workspace} {outcome : Outcome BufferId}
    (heap : before.memory.allocator lexer.allocator = .heap)
    (ran : WorkspaceM.tokenize lexer before = .ok outcome after) :
    ∀ size ∈ payloadLengths (Scan.run lexer.rules lexer.source).tokens, (size : Int) ≤ maxSize :=
  Machine.le_maxSize_of_supplies
    ((Memory.affords_heap heap).mp (affords_of_tokenize (Memory.fits_of_heap heap) ran))

/-- A heap over a machine that never runs out stores all payloads that can be counted. -/
theorem tokenize_of_unlimited {lexer : Lexer}
    (heap : before.memory.allocator lexer.allocator = .heap)
    (unlimited : before.memory.machine = .unlimited)
    (countable : ∀ size ∈ payloadLengths (Scan.run lexer.rules lexer.source).tokens,
      (size : Int) ≤ maxSize) :
    ∃ outcome after, WorkspaceM.tokenize lexer before = .ok outcome after := by
  obtain ⟨outcome, after, ran, -⟩ :=
    tokenize_of_affords (Memory.affords_of_unlimited heap unlimited countable)
  exact ⟨outcome, after, ran⟩

theorem tokenize_success_of_affords {lexer : Lexer} (fits : before.memory.Fits lexer.allocator)
    (affords : before.memory.Affords lexer.allocator
      (payloadLengths (Scan.run lexer.rules lexer.source).tokens))
    (completed : (Scan.run lexer.rules lexer.source).ending = .complete) :
    ∃ tokens after, WorkspaceM.tokenize lexer before = .ok (.success tokens) after := by
  obtain ⟨outcome, after, ran, -⟩ := tokenize_of_affords affords
  have said := outcomeContents_of_tokenize fits ran
  rw [scanOutcome, completed] at said
  cases outcome with
  | success tokens => exact ⟨tokens, after, ran⟩
  | failure reported => cases said

/-- What is left of `lengths` taken one by one from an arena that is too small for all of them: the
arena has handed out the longest beginning that fits. -/
structure Exhausted (id : AllocatorId) (region : Extent) (used : Nat) (lengths : List Nat)
    (fault : Fault) (after : Workspace) (taken : Nat) : Prop where
  inside : taken < lengths.length
  fits : used + (lengths.take taken).sum ≤ region.size
  exceeds : region.size < used + (lengths.take (taken + 1)).sum
  fault_eq : fault = .arenaExhausted lengths[taken]
    ((region.size : Int) - (used + (lengths.take taken).sum : Nat)) region.size
  used_eq : after.memory.allocator id =
    .arena ⟨some region, used + (lengths.take taken).sum⟩

/-- In an arena the stop tells how much was in use and how much was asked for beyond it. -/
theorem Stops.exhausted {base : Memory} {lengths : List Nat} {fault : Fault} {after : Workspace}
    {taken : Nat} (known : base.allocator id = .arena ⟨some region, used⟩)
    (stops : Stops id base lengths fault after taken) :
    Exhausted id region used lengths fault after taken := by
  obtain ⟨inside, affords, lacks, fault_eq, spent⟩ := stops
  rw [Memory.affords_arena known] at affords lacks
  rw [known] at fault_eq spent
  exact ⟨inside, affords, Nat.lt_of_not_le lacks, fault_eq, spent⟩

/-- Let `lengths` be the lengths that a heap scan asks for. An arena scan gives the same outcome,
and the arena counts all of them as used, if they fit what is left of it. If they do not, the arena
scan ends with the fault of an exhausted arena, and the arena counts the longest beginning of them
that fits. -/
theorem threshold_of_tokenize {source : Bytes} {rules : ScanRules} {heap arena : AllocatorId}
    {region : Extent} {used : Nat} {onHeap before : Workspace}
    (isHeap : onHeap.memory.allocator heap = .heap)
    (known : before.memory.allocator arena = .arena ⟨some region, used⟩)
    (fits : before.memory.Fits arena) :
    let lengths := payloadLengths (Scan.run rules source).tokens
    (∀ outcome later, WorkspaceM.tokenize ⟨source, heap, rules⟩ onHeap = .ok outcome later →
      ∃ obtained returned,
        Called heap onHeap.memory.calls later.memory.calls obtained returned ∧
        obtained.map Extent.size = lengths) ∧
    (lengths.sum ≤ region.size - used →
      ∃ outcome after, WorkspaceM.tokenize ⟨source, arena, rules⟩ before = .ok outcome after ∧
        after.memory.allocator arena = .arena ⟨some region, used + lengths.sum⟩ ∧
        ∀ same later, WorkspaceM.tokenize ⟨source, heap, rules⟩ onHeap = .ok same later →
          after.outcomeContents outcome = later.outcomeContents same) ∧
    (region.size - used < lengths.sum →
      ∃ fault after taken, WorkspaceM.tokenize ⟨source, arena, rules⟩ before = .error fault after ∧
        Exhausted arena region used lengths fault after taken) := by
  have within := (fits region used known).2
  refine ⟨fun outcome later ran => requested_of_tokenize ran, ?_, ?_⟩
  · intro enough
    have room : used + (payloadLengths (Scan.run rules source).tokens).sum ≤ region.size := by
      omega
    obtain ⟨outcome, after, ran, now⟩ :=
      @tokenize_of_affords before ⟨source, arena, rules⟩ ((Memory.affords_arena known).mpr room)
    rw [known] at now
    refine ⟨outcome, after, ran, now, ?_⟩
    intro other later also
    rw [outcomeContents_of_tokenize fits ran,
      outcomeContents_of_tokenize (Memory.fits_of_heap isHeap) also]
  · intro little
    have short : ¬before.memory.Affords arena (payloadLengths (Scan.run rules source).tokens) := by
      rw [Memory.affords_arena known]
      omega
    obtain ⟨fault, after, taken, ran, stops⟩ :=
      @tokenize_of_shortage before ⟨source, arena, rules⟩ fits short
    exact ⟨fault, after, taken, ran, stops.exhausted known⟩

/-- A name of two bytes and a string of one byte stand in front of a stray byte. With one byte in
use, an arena of four bytes has room for both payloads. One of three bytes has room for the name
only, and stops before the stray byte is seen. -/
theorem threshold_of_tokenize_stray_byte :
    (∃ outcome after,
      WorkspaceM.tokenize ⟨Utf8.encode "ab \"c\" $", ⟨0⟩, .default⟩
          ⟨.ofArena 4 1, #[]⟩ = .ok outcome after ∧
        after.memory.allocator ⟨0⟩ = .arena ⟨some ⟨⟨0⟩, 0, 4⟩, 4⟩) ∧
    ∃ fault after,
      WorkspaceM.tokenize ⟨Utf8.encode "ab \"c\" $", ⟨0⟩, .default⟩
          ⟨.ofArena 3 1, #[]⟩ = .error fault after ∧
        after.memory.allocator ⟨0⟩ = .arena ⟨some ⟨⟨0⟩, 0, 3⟩, 3⟩ := by
  have lengths :
      payloadLengths (Scan.run .default (Utf8.encode "ab \"c\" $")).tokens = [2, 1] := by
    decide +kernel
  have results (size : Nat) (inside : 1 ≤ size) :=
    @threshold_of_tokenize (Utf8.encode "ab \"c\" $") .default ⟨0⟩ ⟨0⟩ ⟨⟨0⟩, 0, size⟩ 1
      ⟨.ofHeap, #[]⟩
      ⟨.ofArena size 1, #[]⟩ rfl rfl
      (Memory.fits_ofArena inside .unlimited)
  rw [lengths] at results
  obtain ⟨-, roomy, -⟩ := results 4 (by decide)
  obtain ⟨-, -, short⟩ := results 3 (by decide)
  obtain ⟨outcome, after, ran, used, -⟩ := roomy (by decide)
  obtain ⟨fault, stopped, taken, failed, inside, -, exceeds, -, counted⟩ := short (by decide)
  refine ⟨⟨outcome, after, ran, used⟩, fault, stopped, failed, ?_⟩
  have first : taken ≠ 0 := by
    rintro rfl
    exact absurd exceeds (by decide)
  obtain rfl : taken = 1 := Nat.le_antisymm (Nat.le_of_lt_succ inside) (Nat.pos_of_ne_zero first)
  exact counted

end Workspace

end LexKit
