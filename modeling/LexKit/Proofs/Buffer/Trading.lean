import LexKit.Proofs.Buffer.Footprint
import LexKit.Proofs.Memory.Account

/-!
# Trading blocks

How the operations on a buffer keep the account of its allocator balanced. Whatever else is owed, a
buffer that owns a block owes it, and one with an inline block owes nothing. Growth takes up a loan
before it repays the old one, a copy takes up a loan of its own, and release repays. An operation
that fails half way has repaid or still owns all that it took up.
-/

set_option autoImplicit false

namespace LexKit.Buffer

open Running

variable {buffer later last : Buffer} {memory after final : Memory}

def owned? (buffer : Buffer) : Option Loan :=
  if buffer.isInline then none
  else buffer.block.map fun extent => ⟨buffer.allocator, .ofExtent extent⟩

def inline? (buffer : Buffer) : Option Extent :=
  if buffer.isInline then buffer.block else none

theorem owned?_of_block {extent : Extent} (block : buffer.block = some extent)
    (allocated : buffer.isInline = false) :
    buffer.owned? = some ⟨buffer.allocator, .ofExtent extent⟩ := by
  simp [owned?, allocated, block]

theorem owned?_of_inline (inline : buffer.isInline = true) : buffer.owned? = none := by
  simp [owned?, inline]

theorem owned?_of_no_block (absent : buffer.block = none) : buffer.owned? = none := by
  simp [owned?, absent]

theorem inline?_of_no_block (absent : buffer.block = none) : buffer.inline? = none := by
  simp [inline?, absent]

theorem inline?_of_allocated (allocated : buffer.isInline = false) : buffer.inline? = none := by
  simp [inline?, allocated]

@[simp]
theorem owned?_emptied (buffer : Buffer) : buffer.emptied.owned? = none :=
  owned?_of_no_block rfl

/-- `buffer` in `memory` became `later` in `after`, and the account balances as it did before,
whatever it holds besides. -/
def Trades (buffer : Buffer) (memory : Memory) (later : Buffer) (after : Memory) : Prop :=
  ∀ base owed inline,
    Memory.Balanced base (buffer.owned?.toList ++ owed) (buffer.inline?.toList ++ inline) memory →
      Memory.Balanced base (later.owned?.toList ++ owed) (later.inline?.toList ++ inline) after

namespace Trades

/-- What is owed behind two operations is what the second one leaves of what the first one left: a
block that was obtained by the first and given back by the second is owed no more. -/
theorem trans (left : Trades buffer memory later after) (right : Trades later after last final) :
    Trades buffer memory last final :=
  fun base owed inline balanced => right base owed inline (left base owed inline balanced)

theorem of_quiet (quiet : Memory.Quiet memory after) : Trades buffer memory buffer after :=
  fun _ _ _ ⟨calls, booked⟩ => ⟨calls, booked.quiet quiet⟩

theorem refl (buffer : Buffer) (memory : Memory) : Trades buffer memory buffer memory :=
  .of_quiet (.refl memory)

/-- The account knows nothing of how many elements count. -/
theorem recount (trades : Trades buffer memory later after) (count : Nat) :
    Trades buffer memory { later with count } after :=
  trades

theorem abandoned (trades : Trades buffer memory later after) (nothing : later.owned? = none) :
    Trades buffer memory later.emptied after := by
  intro base owed inline balanced
  obtain ⟨calls, booked⟩ := trades base owed inline balanced
  rw [nothing] at booked
  exact ⟨calls, booked.subset (List.subset_append_right _ _)⟩

end Trades

/-! ## Taking up loans and repaying them -/

theorem trades_refused {size : Int} {fault : Fault}
    (refused : Memory.allocate buffer.allocator size memory = .error fault after) :
    Trades buffer memory buffer after := by
  cases Memory.allocate_error refused
  exact fun _ _ _ ⟨calls, booked⟩ => ⟨_, booked.refused buffer.allocator size⟩

theorem trades_emptied {extent : Extent} (block : buffer.block = some extent) (taken : Bool) :
    Trades buffer memory buffer.emptied
      (if buffer.isInline then memory
      else memory.record (.free buffer.allocator (.ofExtent extent) taken)) := by
  cases inline : buffer.isInline with
  | true => exact (Trades.refl buffer memory).abandoned (owned?_of_inline inline)
  | false =>
      rintro base owed others ⟨calls, booked⟩
      rw [owned?_of_block block inline, inline?_of_allocated inline] at booked
      exact ⟨_, booked.repaid taken⟩

theorem trades_release (buffer : Buffer) (memory : Memory) :
    ∃ after, buffer.release memory = .ok buffer.emptied after ∧
      Trades buffer memory buffer.emptied after := by
  cases block : buffer.block with
  | none =>
      refine ⟨memory, by simp only [release, dropBlock, block]; rfl, ?_⟩
      exact (Trades.refl buffer memory).abandoned (owned?_of_no_block block)
  | some extent =>
      have repaid := @trades_emptied buffer memory extent block
        (memory.takesBack buffer.allocator (.ofExtent extent))
      refine ⟨_, ?_, repaid⟩
      cases inline : buffer.isInline with
      | true => simp only [release, dropBlock, block, inline]; rfl
      | false => simp only [release, dropBlock, block, inline]; rfl

theorem trades_relocated {size : Int} {extent : Extent} (positive : 0 < size)
    (supplied : Memory.allocate buffer.allocator size memory = .ok extent after) :
    Trades buffer memory { buffer with block := some extent, isInline := false }
      (buffer.relocated extent after) := by
  rintro base owed inline ⟨calls, booked⟩
  have lent := booked.lent positive supplied
  unfold relocated
  cases block : buffer.block with
  | none =>
      rw [owned?_of_no_block block] at lent
      exact ⟨_, lent.subset (List.subset_append_right _ _)⟩
  | some old =>
      -- The old block is still owed besides the new one, and is repaid only now.
      have copied :=
        lent.quiet (Memory.quiet_write after extent.storage extent.start (after.read old))
      exact trades_emptied block _ base (⟨buffer.allocator, .ofExtent extent⟩ :: owed) inline
        ⟨_, copied.reordered List.perm_middle.symm⟩

/-! ## Writing elements -/

theorem quiet_writeAt (buffer : Buffer) (start : Nat) (bytes : Bytes) (memory : Memory) :
    Memory.Quiet memory (buffer.writeAt start bytes memory) := by
  unfold writeAt
  split
  · exact Memory.quiet_write memory _ _ bytes
  · exact .refl memory

theorem quiet_openPlace (buffer : Buffer) (index : Nat) (memory : Memory) :
    Memory.Quiet memory (Running.final (buffer.openPlace index memory)) := by
  rcases openPlace_cases buffer index memory with refused |
    ⟨extent, offset, type, block, -, opened⟩
  · rw [refused]
    exact .refl memory
  · simp only [opened, clearAt, block]
    exact (Memory.changesWithin_zero memory _ _ _).quiet rfl

theorem quiet_fill (buffer : Buffer) (place : ItemPlace) (value : Value) (memory : Memory) :
    Memory.Quiet memory (Running.final (buffer.fill place value memory)) := by
  obtain ⟨bytes, -, same⟩ := final_fill buffer place value memory
  rw [same]
  exact Memory.quiet_write memory place.storage place.start bytes

/-! ## Actions that give a buffer -/

/-- An action replaced the buffer, or failed and left the buffer as it was. -/
def Deals (buffer : Buffer) (memory : Memory) : EStateM.Result Fault Memory Buffer → Prop
  | .ok later after => Trades buffer memory later after
  | .error _ after => Trades buffer memory buffer after

theorem deals_reserve (buffer : Buffer) (memory : Memory) (capacity : Int) :
    Deals buffer memory (buffer.reserve capacity memory) := by
  by_cases unsized : buffer.layout.size = 0
  · rw [reserve_unsized unsized]
    exact .refl buffer memory
  · rw [reserve_eq unsized]
    split
    · exact .refl buffer memory
    · rename_i short
      have more : 0 < capacity :=
        Int.lt_of_le_of_lt (Int.natCast_nonneg _) (Int.not_le.mp short)
      have sized : 0 < (buffer.layout.size : Int) :=
        Int.natCast_pos.mpr (Nat.pos_of_ne_zero unsized)
      cases supplied : Memory.allocate buffer.allocator (capacity * buffer.layout.size) memory with
      | ok extent between => exact trades_relocated (Int.mul_pos more sized) supplied
      | error fault between => exact trades_refused supplied

theorem deals_makeRoom (buffer : Buffer) (memory : Memory) :
    Deals buffer memory (buffer.makeRoom memory) := by
  by_cases unsized : buffer.layout.size = 0
  · simp only [makeRoom, capacity, unsized, ↓reduceIte, run_bind, run_ofExcept_error]
    exact .refl buffer memory
  · rw [makeRoom_eq (Nat.pos_of_ne_zero unsized)]
    split
    · exact deals_reserve buffer memory _
    · exact .refl buffer memory

theorem deals_appendBytes (buffer : Buffer) (memory : Memory) (bytes : Bytes) :
    Deals buffer memory (buffer.appendBytes bytes memory) := by
  by_cases nonempty : bytes = []
  · subst nonempty
    exact .refl buffer memory
  · have grown := deals_reserve buffer memory (buffer.count + bytes.length : Nat)
    rw [appendBytes_eq nonempty]
    cases ran : buffer.reserve (buffer.count + bytes.length : Nat) memory with
    | error fault between =>
        rw [ran] at grown
        exact grown
    | ok roomy between =>
        rw [ran] at grown
        exact (Trades.trans grown (.of_quiet (quiet_writeAt roomy _ bytes between))).recount _

theorem deals_resize (buffer : Buffer) (memory : Memory) (count : Int) :
    Deals buffer memory (buffer.resize count memory) := by
  by_cases negative : count < 0
  · rw [resize_negative negative]
    exact .refl buffer memory
  · by_cases unsized : buffer.layout.size = 0
    · simp only [resize, negative, capacity, unsized, ↓reduceIte, run_bind, run_ofExcept_error]
      exact .refl buffer memory
    · have positive := Nat.pos_of_ne_zero unsized
      rw [resize_eq positive negative]
      split
      · have grown := deals_reserve buffer memory count
        cases ran : buffer.reserve count memory with
        | error fault between =>
            rw [ran] at grown
            exact grown
        | ok roomy between =>
            rw [ran] at grown
            exact Trades.recount grown _
      · exact (Trades.refl buffer memory).recount _

/-! ## Making buffers -/

theorem deals_spawn (buffer : Buffer) (memory : Memory) :
    Deals buffer.emptied memory (buffer.spawn memory) ∧
      ∀ blank after, buffer.spawn memory = .ok blank after → blank.owned? = none := by
  unfold spawn create
  by_cases inline : buffer.inlineCapacity > 0
  · rcases Memory.newStorage_cases (buffer.inlineCapacity * buffer.layout.size) memory with
      ⟨fault, refused, -⟩ | supplied
    · simp only [inline, ↓reduceIte, run_bind, refused]
      exact ⟨.refl buffer.emptied memory, fun _ _ ran => by cases ran⟩
    · simp only [inline, ↓reduceIte, run_bind, supplied, run_pure]
      refine ⟨?_, fun blank after ran => by cases ran; rfl⟩
      rintro base owed others ⟨calls, booked⟩
      exact ⟨calls, booked.inlined _⟩
  · simp only [inline, ↓reduceIte, run_pure]
    exact ⟨.refl buffer.emptied memory, fun blank after ran => by cases ran; rfl⟩

theorem deals_copy (buffer : Buffer) (memory : Memory) :
    Deals buffer.emptied memory (buffer.copy memory) := by
  obtain ⟨spawned, nothing⟩ := deals_spawn buffer memory
  -- What was spawned owns nothing of the allocator as long as it has not grown.
  have given_up : ∀ blank made after, buffer.spawn memory = .ok blank made →
      Trades blank made blank after → Trades buffer.emptied memory buffer.emptied after := by
    intro blank made after ran kept
    rw [ran] at spawned
    exact (Trades.trans spawned kept).abandoned (nothing blank made ran)
  by_cases unsized : buffer.layout.size = 0
  · simp only [copy, capacity, unsized, ↓reduceIte, run_bind, run_ofExcept_error]
    cases ran : buffer.spawn memory with
    | error fault after =>
        rw [ran] at spawned
        exact spawned
    | ok blank made => exact given_up blank made made ran (.refl blank made)
  · rw [copy_eq buffer memory (Nat.pos_of_ne_zero unsized)]
    cases ran : buffer.spawn memory with
    | error fault after =>
        rw [ran] at spawned
        exact spawned
    | ok blank made =>
        have grown := deals_reserve blank made (buffer.blockSize / buffer.layout.size : Nat)
        dsimp only
        cases grew : blank.reserve (buffer.blockSize / buffer.layout.size : Nat) made with
        | error fault after =>
            rw [grew] at grown
            exact given_up blank made after ran grown
        | ok clone between =>
            rw [ran] at spawned
            rw [grew] at grown
            have owns := Trades.trans spawned grown
            dsimp only
            cases buffer.block with
            | none => exact owns.recount _
            | some source =>
                exact (owns.trans (.of_quiet (quiet_writeAt clone 0 _ between))).recount _

theorem deals_ofBytes (allocator : AllocatorId) (bytes : Bytes) (memory : Memory) :
    Deals ⟨allocator, .text, Layout.byteLayout, 0, 0, none, false⟩ memory
      (ofBytes allocator bytes memory) :=
  deals_appendBytes _ memory bytes

/-! ## Operations on the buffer -/

def Honors {α : Type} (buffer : Buffer) (memory : Memory) (operation : BufferM α) : Prop :=
  Trades buffer memory (Running.final (operation ⟨buffer, memory⟩)).buffer
    (Running.final (operation ⟨buffer, memory⟩)).memory

theorem honors_replace {action : Buffer → MemoryM Buffer}
    (deals : Deals buffer memory (action buffer memory)) :
    Honors buffer memory (BufferM.replace action) := by
  unfold Honors BufferM.replace
  dsimp only
  cases ran : action buffer memory with
  | ok later after =>
      rw [ran] at deals
      exact deals
  | error fault after =>
      rw [ran] at deals
      exact deals

theorem honors_observe {α : Type} {action : Buffer → MemoryM α}
    (quiet : Memory.Quiet memory (Running.final (action buffer memory))) :
    Honors buffer memory (BufferM.observe action) := by
  unfold Honors BufferM.observe
  dsimp only
  cases ran : action buffer memory with
  | ok result after =>
      rw [ran] at quiet
      exact .of_quiet quiet
  | error fault after =>
      rw [ran] at quiet
      exact .of_quiet quiet

theorem honors_push (buffer : Buffer) (memory : Memory) (value : Value) :
    Honors buffer memory (BufferM.push value) := by
  have room := deals_makeRoom buffer memory
  unfold Honors
  rw [push_eq]
  cases made : buffer.makeRoom memory with
  | error fault between =>
      rw [made] at room
      exact room
  | ok roomy between =>
      rw [made] at room
      have opening := quiet_openPlace roomy roomy.count between
      dsimp only
      cases opened : roomy.openPlace roomy.count between with
      | error fault after =>
          rw [opened] at opening
          exact Trades.trans room (.of_quiet opening)
      | ok place cleared =>
          rw [opened] at opening
          have wrote := opening.trans (quiet_fill roomy place value cleared)
          dsimp only
          cases filled : roomy.fill place value cleared with
          | error fault after =>
              rw [filled] at wrote
              exact Trades.trans room (.of_quiet wrote)
          | ok done after =>
              rw [filled] at wrote
              exact (Trades.trans room (.of_quiet wrote)).recount _

theorem honors_extend (buffer : Buffer) (memory : Memory) (values : List Value) :
    Honors buffer memory (BufferM.extend values) := by
  induction values generalizing buffer memory with
  | nil => exact .refl buffer memory
  | cons value rest ih =>
      have first := honors_push buffer memory value
      unfold Honors at first ⊢
      rw [extend_cons]
      cases ran : BufferM.push value ⟨buffer, memory⟩ with
      | error fault state =>
          rw [ran] at first
          exact first
      | ok done state =>
          rw [ran] at first
          exact first.trans (ih state.buffer state.memory)

private theorem honors_extendFrom (source : Buffer) (extent : Extent) (index count : Nat)
    (buffer : Buffer) (memory : Memory) :
    Honors buffer memory (BufferM.extendFrom source extent index count) := by
  induction count generalizing index buffer memory with
  | zero => exact .refl buffer memory
  | succ count ih =>
      unfold Honors
      rw [extendFrom_succ, element_answer]
      cases source.elementFound memory extent index with
      | error fault => exact .refl buffer memory
      | ok value =>
          have first := honors_push buffer memory value
          unfold Honors at first
          simp only [answer]
          cases ran : BufferM.push value ⟨buffer, memory⟩ with
          | error fault state =>
              rw [ran] at first
              exact first
          | ok done state =>
              rw [ran] at first
              exact first.trans (ih (index + 1) state.buffer state.memory)

theorem honors_extendBy (buffer : Buffer) (memory : Memory) (source : Buffer) :
    Honors buffer memory (BufferM.extendBy source) := by
  unfold BufferM.extendBy
  cases source.block with
  | none => exact .refl buffer memory
  | some extent => exact honors_extendFrom source extent 0 source.count buffer memory

theorem honors_set (buffer : Buffer) (memory : Memory) (index : Quantity) (value : Value) :
    Honors buffer memory (BufferM.set index value) := by
  refine honors_observe ?_
  unfold set
  rw [run_bind]
  rcases openAt_cases buffer index memory with ⟨fault, refused⟩ | ⟨place, -, same⟩
  · rw [refused]
    exact .refl memory
  · have opening := quiet_openPlace buffer place memory
    rw [same]
    cases opened : buffer.openPlace place memory with
    | ok spot cleared =>
        rw [opened] at opening
        exact opening.trans (quiet_fill buffer spot value cleared)
    | error fault after =>
        rw [opened] at opening
        exact opening

theorem honors_pop (buffer : Buffer) (memory : Memory) :
    Honors buffer memory BufferM.pop := by
  unfold Honors BufferM.pop BufferM.exchange
  by_cases empty : buffer.count = 0
  · simp only [pop, empty, ↓reduceIte, run_bind, run_throw]
    exact .refl buffer memory
  · simp only [pop, empty, ↓reduceIte, run_bind, run_pure, get_answer]
    cases buffer.found memory (.int (buffer.count - 1 : Nat)) with
    | error fault => exact .refl buffer memory
    | ok value => exact (Trades.refl buffer memory).recount _

theorem honors_clear (buffer : Buffer) (memory : Memory) :
    Honors buffer memory BufferM.clear :=
  honors_replace ((Trades.refl buffer memory).recount 0)

theorem honors_release (buffer : Buffer) (memory : Memory) :
    Honors buffer memory BufferM.release := by
  obtain ⟨after, released, trades⟩ := trades_release buffer memory
  refine honors_replace ?_
  rw [released]
  exact trades

end LexKit.Buffer
