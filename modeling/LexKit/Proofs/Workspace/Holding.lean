import LexKit.Proofs.Buffer.Ownership
import LexKit.Proofs.Memory.Spending
import LexKit.Proofs.Workspace.Payloads

/-!
# Blocks of payloads

Which blocks the payloads of a scan obtain from an allocator that may refuse any request, and how
they are given back. A payload that is not empty asks once, for exactly its length; an empty one
does not ask. The texts of the payloads stand behind the buffers that there were, in the order of
the tokens.
-/

set_option autoImplicit false

namespace LexKit

/-! ## One text -/

namespace Buffer

def stored (allocator : AllocatorId) (block : Option Extent) (count : Nat) : Buffer :=
  ⟨allocator, .text, Layout.byteLayout, 0, count, block, false⟩

theorem ofBytes_eq (allocator : AllocatorId) {bytes : Bytes} (nonempty : bytes ≠ [])
    (memory : Memory) :
    ofBytes allocator bytes memory =
      match Memory.allocate allocator bytes.length memory with
      | .ok extent between =>
          .ok (stored allocator (some extent) bytes.length)
            (between.write extent.storage extent.start bytes)
      | .error fault after => .error fault after := by
  have positive := List.length_pos_iff.mpr nonempty
  have grown := reserve_eq (show (stored allocator none 0).layout.size ≠ 0 from Nat.one_ne_zero)
    (bytes.length : Nat) memory
  change (stored allocator none 0).appendBytes bytes memory = _
  rw [appendBytes_eq nonempty]
  simp only [stored, Layout.byteLayout, blockSize, Nat.zero_div, Nat.zero_add, Int.natCast_one,
    Int.mul_one] at grown ⊢
  rw [grown, if_neg (by omega)]
  cases Memory.allocate allocator bytes.length memory with
  | error fault after => rfl
  | ok extent between => simp [writeAt, relocated]

theorem release_of_not_inline {buffer : Buffer} (allocated : buffer.isInline = false)
    (memory : Memory) :
    buffer.release memory =
      .ok buffer.emptied (memory.returning buffer.allocator buffer.block.toList) := by
  unfold release dropBlock
  cases known : buffer.block with
  | none => rfl
  | some extent =>
      rw [allocated]
      rfl

/-- A text over a block of exactly its length, which it got from the allocator. -/
structure Exact (id : AllocatorId) (text : Buffer) : Prop where
  allocator_eq : text.allocator = id
  allocated : text.isInline = false
  blockSize_eq : text.blockSize = text.count
  block_iff : text.block = none ↔ text.count = 0

theorem exact_stored_nil (id : AllocatorId) : Exact id (stored id none 0) :=
  ⟨rfl, rfl, rfl, by simp [stored]⟩

theorem exact_stored {id : AllocatorId} {extent : Extent} (positive : 0 < extent.size) :
    Exact id (stored id (some extent) extent.size) :=
  ⟨rfl, rfl, rfl, by simp [stored, Nat.ne_of_gt positive]⟩

end Buffer

namespace Workspace

open Running

/-! ## An allocator that may refuse -/

/-- The texts of a payload store when each request, seen together with all calls that were made
before it, may be refused with any fault. An empty payload makes no request. -/
def refusingStore (refuses : List AllocatorCall → Nat → Option Fault) (allocator : AllocatorId) :
    PayloadStore Workspace BufferId where
  hold bytes workspace :=
    match if bytes.isEmpty then none else refuses workspace.memory.calls bytes.length with
    | some fault =>
        (.error fault,
          ⟨workspace.memory.record (.allocate allocator bytes.length none), workspace.buffers⟩)
    | none => (payloadStore allocator).hold bytes workspace
  drop := (payloadStore allocator).drop

theorem refusingStore_never (allocator : AllocatorId) :
    refusingStore (fun _ _ => none) allocator = payloadStore allocator := by
  simp only [refusingStore, ite_self]

inductive Held (id : AllocatorId) (bytes : Bytes) (before : Workspace) :
    Except Fault BufferId × Workspace → Prop
  | empty (nothing : bytes = []) :
      Held id bytes before
        (.ok ⟨before.buffers.size⟩, ⟨before.memory, before.buffers.push (.stored id none 0)⟩)
  | granted (extent : Extent) (between : Memory) (nonempty : bytes ≠ [])
      (supplied : Memory.allocate id bytes.length before.memory = .ok extent between) :
      Held id bytes before
        (.ok ⟨before.buffers.size⟩,
          ⟨between.write extent.storage extent.start bytes,
            before.buffers.push (.stored id (some extent) bytes.length)⟩)
  | refused (fault : Fault) (nonempty : bytes ≠ []) :
      Held id bytes before
        (.error fault,
          ⟨before.memory.record (.allocate id bytes.length none), before.buffers⟩)

theorem hold_eq (id : AllocatorId) (bytes : Bytes) (memory : Memory) (buffers : Array Buffer) :
    (payloadStore id).hold bytes ⟨memory, buffers⟩ =
      match Buffer.ofBytes id bytes memory with
      | .ok text after => (.ok ⟨buffers.size⟩, ⟨after, buffers.push text⟩)
      | .error fault after => (.error fault, ⟨after, buffers⟩) := by
  simp only [payloadStore, WorkspaceM.textOfBytes, WorkspaceM.addBuffer, run_bind,
    WorkspaceM.onMemory]
  cases Buffer.ofBytes id bytes memory <;> rfl

theorem held_of_payloadStore (id : AllocatorId) (bytes : Bytes) (before : Workspace) :
    Held id bytes before ((payloadStore id).hold bytes before) := by
  obtain ⟨memory, buffers⟩ := before
  rw [hold_eq]
  by_cases nonempty : bytes = []
  · subst nonempty
    exact .empty rfl
  · rw [Buffer.ofBytes_eq id nonempty memory]
    cases supplied : Memory.allocate id bytes.length memory with
    | ok extent between => exact .granted extent between nonempty supplied
    | error fault after =>
        cases Memory.allocate_error supplied
        exact .refused fault nonempty

theorem held_of_refusingStore (refuses : List AllocatorCall → Nat → Option Fault)
    (id : AllocatorId) (bytes : Bytes) (before : Workspace) :
    Held id bytes before ((refusingStore refuses id).hold bytes before) := by
  by_cases nonempty : bytes = []
  · subst nonempty
    exact .empty rfl
  · simp only [refusingStore, List.isEmpty_iff, nonempty, ↓reduceIte]
    cases refuses before.memory.calls bytes.length with
    | some fault => exact .refused fault nonempty
    | none => exact held_of_payloadStore id bytes before

/-! ## Room for a text -/

variable {allocator : AllocatorId} {before after : Workspace} {memory : Memory} {bytes : Bytes}
  {rest : List Nat}

theorem ofBytes_of_affords (affords : memory.Affords allocator (bytes.length :: rest)) :
    ∃ text after, Buffer.ofBytes allocator bytes memory = .ok text after ∧
      after.Affords allocator rest := by
  by_cases nonempty : bytes = []
  · subst nonempty
    exact ⟨_, _, rfl, Memory.affords_zero_cons.mp affords⟩
  · obtain ⟨extent, after, supplied, left⟩ :=
      Memory.allocate_of_affords (List.length_pos_iff.mpr nonempty) affords
    rw [Buffer.ofBytes_eq allocator nonempty, supplied]
    exact ⟨_, _, rfl, left⟩

theorem textOfBytes_of_affords
    (affords : before.memory.Affords allocator (bytes.length :: rest)) :
    ∃ name after, WorkspaceM.textOfBytes allocator bytes before = .ok name after ∧
      after.memory.Affords allocator rest := by
  obtain ⟨text, after, made, left⟩ := ofBytes_of_affords affords
  refine ⟨⟨before.buffers.size⟩, ⟨after, before.buffers.push text⟩, ?_, left⟩
  simp only [WorkspaceM.textOfBytes, WorkspaceM.addBuffer, run_bind, WorkspaceM.onMemory, made]
  rfl

/-- A text that is stored takes its length from what there is room for, and nothing more. -/
theorem affords_iff_of_hold {name : BufferId}
    (held : (payloadStore allocator).hold bytes before = (.ok name, after)) :
    before.memory.Affords allocator (bytes.length :: rest) ↔
      after.memory.Affords allocator rest := by
  have known := held_of_payloadStore allocator bytes before
  rw [held] at known
  cases known with
  | empty nothing =>
      subst nothing
      exact Memory.affords_zero_cons
  | granted extent between nonempty supplied =>
      have taken : _ ↔ between.Affords allocator rest :=
        Memory.affords_cons_iff (List.length_pos_iff.mpr nonempty) supplied
      exact taken

/-! ## The texts of a scan -/

/-- Texts were added, over blocks that are new and differ from each other. -/
structure Filled (id : AllocatorId) (texts : List Buffer) (before after : Workspace) : Prop where
  buffers_eq : after.buffers = before.buffers ++ texts.toArray
  exact : ∀ text ∈ texts, text.Exact id
  called : Called id before.memory.calls after.memory.calls (texts.filterMap Buffer.block) []
  nodup : (texts.filterMap Buffer.block).Nodup
  ahead : ∀ extent ∈ texts.filterMap Buffer.block, before.memory.Ahead id extent
  beyond : ∀ extent, after.memory.Ahead id extent →
    before.memory.Ahead id extent ∧ extent ∉ texts.filterMap Buffer.block

namespace Filled

variable {id : AllocatorId} {texts more : List Buffer} {first second third : Workspace}

theorem refl (id : AllocatorId) (workspace : Workspace) : Filled id [] workspace workspace :=
  ⟨by simp, by simp, .refl id workspace.memory.calls, List.nodup_nil, by simp,
    fun _ ahead => ⟨ahead, List.not_mem_nil⟩⟩

theorem trans (left : Filled id texts first second) (right : Filled id more second third) :
    Filled id (texts ++ more) first third := by
  refine ⟨?_, ?_, ?_, ?_, ?_, ?_⟩
  · rw [right.buffers_eq, left.buffers_eq]
    simp
  · intro text member
    rcases List.mem_append.mp member with member | member
    · exact left.exact text member
    · exact right.exact text member
  · rw [List.filterMap_append]
    exact left.called.trans right.called
  · rw [List.filterMap_append, List.nodup_append]
    refine ⟨left.nodup, right.nodup, ?_⟩
    rintro earlier member later also rfl
    exact (left.beyond earlier (right.ahead earlier also)).2 member
  · intro extent member
    rw [List.filterMap_append] at member
    rcases List.mem_append.mp member with member | member
    · exact left.ahead extent member
    · exact (left.beyond extent (right.ahead extent member)).1
  · intro extent ahead
    obtain ⟨between, later⟩ := right.beyond extent ahead
    obtain ⟨before, earlier⟩ := left.beyond extent between
    refine ⟨before, ?_⟩
    rw [List.filterMap_append]
    exact fun member => (List.mem_append.mp member).elim earlier later

end Filled

theorem filled_of_held {id : AllocatorId} {bytes : Bytes} {before after : Workspace}
    {name : BufferId} (held : Held id bytes before (.ok name, after)) :
    ∃ text, name = ⟨before.buffers.size⟩ ∧ text.count = bytes.length ∧
      Filled id [text] before after := by
  cases held with
  | empty nothing =>
      refine ⟨.stored id none 0, rfl, by simp [Buffer.stored, nothing], ?_, ?_,
        .refl id before.memory.calls, List.nodup_nil, by simp [Buffer.stored],
        fun _ ahead => ⟨ahead, List.not_mem_nil⟩⟩
      · simp
      · simpa using Buffer.exact_stored_nil id
  | granted extent between nonempty supplied =>
      have positive := List.length_pos_iff.mpr nonempty
      have size := Memory.size_of_allocate supplied
      have calls := Memory.calls_of_allocate supplied
      obtain ⟨ahead, beyond⟩ := Memory.ahead_of_allocate (by omega) supplied
      rw [Int.toNat_natCast] at size
      refine ⟨.stored id (some extent) bytes.length, rfl, rfl, ?_, ?_, ?_, ?_, ?_, ?_⟩
      · simp
      · rw [← size] at positive ⊢
        simpa using Buffer.exact_stored positive
      · change Called id before.memory.calls between.calls [extent] []
        rw [calls]
        exact .granted _ _ extent
      · simp [Buffer.stored]
      · simpa [Buffer.stored] using ahead
      · simpa [Buffer.stored] using beyond

theorem filled_of_refused {id : AllocatorId} {bytes : Bytes} {before after : Workspace}
    {fault : Fault} (held : Held id bytes before (.error fault, after)) :
    Filled id [] before after := by
  cases held with
  | refused nonempty =>
      exact ⟨by simp, by simp, .refused _ _, List.nodup_nil, by simp,
        fun _ ahead => ⟨ahead, List.not_mem_nil⟩⟩

def namesFrom (first count : Nat) : List BufferId :=
  (List.range' first count).map BufferId.mk

theorem namesFrom_succ (first count : Nat) :
    namesFrom first (count + 1) = ⟨first⟩ :: namesFrom (first + 1) count :=
  rfl

/-- What storing the payloads of tokens behind others comes to. -/
structure Interned (id : AllocatorId) (done : List (Token BufferId)) (tokens : List (Token Bytes))
    (before : Workspace) (stored : List (Token BufferId)) (fault? : Option Fault)
    (after : Workspace) (texts : List Buffer) : Prop where
  filled : Filled id texts before after
  payloads_eq : stored.filterMap Token.payload? =
    done.reverse.filterMap Token.payload? ++ namesFrom before.buffers.size texts.length
  counts_eq : fault? = none →
    texts.map Buffer.count = (tokens.filterMap Token.payload?).map List.length

/-- Whatever each single payload comes to, all of them together are stored one after the other, up
to the first one that cannot be. -/
theorem interned_of_intern {id : AllocatorId} {store : PayloadStore Workspace BufferId}
    (holds : ∀ bytes before, Held id bytes before (store.hold bytes before))
    {tokens : List (Token Bytes)} {done stored : List (Token BufferId)} {before after : Workspace}
    {fault? : Option Fault} (interned : store.intern done tokens before = (stored, fault?, after)) :
    ∃ texts, Interned id done tokens before stored fault? after texts := by
  induction tokens generalizing done before with
  | nil =>
      cases interned
      exact ⟨[], .refl id after, by simp [namesFrom], fun _ => rfl⟩
  | cons token rest ih =>
      unfold PayloadStore.intern at interned
      cases carried : token.lexeme.payload? with
      | none =>
          obtain ⟨plain, same, absent, -⟩ := internLexeme_plain store carried before
          rw [same] at interned
          obtain ⟨texts, filled, payloads, counts⟩ := ih interned
          refine ⟨texts, filled, ?_, ?_⟩
          · simpa [Token.payload?, absent] using payloads
          · simpa [Token.payload?, carried] using counts
      | some payload =>
          obtain ⟨wrap, same, named, -⟩ := internLexeme_carried store carried
          have held := holds payload before
          rw [same] at interned
          cases ran : store.hold payload before with
          | mk result between =>
              rw [ran] at interned held
              cases result with
              | error fault =>
                  cases interned
                  exact ⟨[], filled_of_refused held, by simp [namesFrom], by simp⟩
              | ok name =>
                  obtain ⟨text, rfl, count, added⟩ := filled_of_held held
                  obtain ⟨texts, filled, payloads, counts⟩ := ih interned
                  refine ⟨text :: texts, added.trans filled, ?_, ?_⟩
                  · rw [payloads, added.buffers_eq]
                    simp [Token.payload?, named, namesFrom_succ]
                  · intro unfailed
                    simp [Token.payload?, carried, count, counts unfailed]

end Workspace

end LexKit
