import LexKit.Proofs.Buffer.Elements
import LexKit.Proofs.Memory.Refusal

/-!
# Exhaustion

What a buffer is left with when its allocator refuses a request. All operations ask for their room
before they change anything, so a refusal leaves the buffer and the bytes as they were. An extension
is a push for each value: it is left with the elements that there were and those pushed until then.
-/

set_option autoImplicit false

namespace LexKit

theorem FieldType.encode_not_refusal {type : FieldType} {isNative bigEndian : Bool} {value : Value}
    {cause : Fault} (refused : type.encode isNative bigEndian value = .error cause) :
    cause.isRefusal = false := by
  rcases encode_error refused with rfl | rfl
  · rfl
  · rfl

namespace Buffer

open Running

variable {buffer later last : Buffer} {memory after final : Memory} {value : Value}
  {values kept more : List Value} {cause : Fault} {state : BufferState}

/-! ## Requests for room -/

theorem intact_of_reserve {capacity : Int}
    (failed : buffer.reserve capacity memory = .error cause after) : memory.Intact after := by
  by_cases unsized : buffer.layout.size = 0
  · rw [reserve_unsized unsized] at failed
    cases failed
    exact .refl memory
  · rw [reserve_eq unsized] at failed
    split at failed
    · cases failed
    · split at failed
      · cases failed
      · rename_i refused
        cases failed
        exact Memory.intact_of_allocate refused

theorem intact_of_makeRoom (failed : buffer.makeRoom memory = .error cause after) :
    memory.Intact after := by
  by_cases unsized : buffer.layout.size = 0
  · simp only [makeRoom, capacity, unsized, ↓reduceIte, run_bind, run_ofExcept_error] at failed
    cases failed
    exact .refl memory
  · rw [makeRoom_eq (Nat.pos_of_ne_zero unsized)] at failed
    split at failed
    · exact intact_of_reserve failed
    · cases failed

theorem intact_of_resize {count : Int}
    (failed : buffer.resize count memory = .error cause after) : memory.Intact after := by
  by_cases negative : count < 0
  · rw [resize_negative negative] at failed
    cases failed
    exact .refl memory
  · by_cases unsized : buffer.layout.size = 0
    · simp only [resize, negative, capacity, unsized, ↓reduceIte, run_bind,
        run_ofExcept_error] at failed
      cases failed
      exact .refl memory
    · rw [resize_eq (Nat.pos_of_ne_zero unsized) negative] at failed
      split at failed
      · split at failed
        · cases failed
        · rename_i refused
          cases failed
          exact intact_of_reserve refused
      · cases failed

theorem intact_of_appendBytes {bytes : Bytes}
    (failed : buffer.appendBytes bytes memory = .error cause after) : memory.Intact after := by
  by_cases nonempty : bytes = []
  · subst nonempty
    cases failed
  · rw [appendBytes_eq nonempty] at failed
    split at failed
    · cases failed
    · rename_i refused
      cases failed
      exact intact_of_reserve refused

theorem intact_spawn (buffer : Buffer) (memory : Memory) :
    memory.Intact (Running.final (buffer.spawn memory)) := by
  unfold spawn create
  by_cases inline : buffer.inlineCapacity > 0
  · rcases Memory.newStorage_cases (buffer.inlineCapacity * buffer.layout.size) memory with
      ⟨fault, refused, -⟩ | supplied
    · simp only [inline, ↓reduceIte, run_bind, refused]
      exact .refl memory
    · simp only [inline, ↓reduceIte, run_bind, supplied, run_pure]
      exact Memory.intact_addStorage memory _
  · simp only [inline, ↓reduceIte, run_pure]
    exact .refl memory

theorem intact_of_copy (failed : buffer.copy memory = .error cause after) :
    memory.Intact after := by
  have spawned := intact_spawn buffer memory
  by_cases unsized : buffer.layout.size = 0
  · simp only [copy, capacity, unsized, ↓reduceIte, run_bind, run_ofExcept_error] at failed
    cases made : buffer.spawn memory with
    | error fault between =>
        rw [made] at failed spawned
        cases failed
        exact spawned
    | ok blank between =>
        rw [made] at failed spawned
        cases failed
        exact spawned
  · rw [copy_eq buffer memory (Nat.pos_of_ne_zero unsized)] at failed
    cases made : buffer.spawn memory with
    | error fault between =>
        rw [made] at failed spawned
        cases failed
        exact spawned
    | ok blank between =>
        rw [made] at failed spawned
        dsimp only at failed
        split at failed
        · rename_i refused
          cases failed
          exact spawned.trans (intact_of_reserve refused)
        · cases failed

/-- An operation that is refused its room leaves the buffer and the memory as they were. -/
def Recoils {α : Type} (buffer : Buffer) (memory : Memory) (operation : BufferM α) : Prop :=
  ∀ cause state, cause.isRefusal = true → operation ⟨buffer, memory⟩ = .error cause state →
    state.buffer = buffer ∧ memory.Intact state.memory

theorem recoils_replace {action : Buffer → MemoryM Buffer}
    (intact : ∀ cause after, action buffer memory = .error cause after → memory.Intact after) :
    Recoils buffer memory (BufferM.replace action) := by
  intro cause state _ failed
  simp only [BufferM.replace] at failed
  cases ran : action buffer memory with
  | ok later after =>
      rw [ran] at failed
      cases failed
  | error fault after =>
      rw [ran] at failed
      cases failed
      exact ⟨rfl, intact _ _ ran⟩

theorem fill_error {place : ItemPlace}
    (failed : buffer.fill place value memory = .error cause after) : cause.isRefusal = false := by
  unfold fill at failed
  dsimp only at failed
  cases encoded : place.type.encode buffer.layout.isNative buffer.layout.bigEndian value with
  | ok bytes =>
      rw [encoded] at failed
      cases failed
  | error fault =>
      rw [encoded] at failed
      cases failed
      exact FieldType.encode_not_refusal encoded

theorem recoils_push (buffer : Buffer) (memory : Memory) (value : Value) :
    Recoils buffer memory (BufferM.push value) := by
  intro cause state refused failed
  rw [push_eq] at failed
  cases made : buffer.makeRoom memory with
  | error fault after =>
      rw [made] at failed
      cases failed
      exact ⟨rfl, intact_of_makeRoom made⟩
  | ok roomy between =>
      -- Where there is room, a push fails for the value alone.
      rw [made] at failed
      dsimp only at failed
      split at failed
      · rename_i opening
        cases failed
        obtain ⟨rfl, -⟩ := openPlace_error opening
        cases refused
      · split at failed
        · rename_i filling
          cases failed
          rw [fill_error filling] at refused
          cases refused
        · cases failed

/-! ## Values that were pushed -/

/-- The elements that there were are followed by what the item keeps of the values. -/
structure Pushed (kept : List Value) (buffer : Buffer) (memory : Memory) (later : Buffer)
    (after : Memory) : Prop where
  confined : Confined False buffer memory later after
  count_eq : later.count = buffer.count + kept.length
  elements_eq : buffer.Settled memory buffer.allocator →
    later.elements after = buffer.elements memory ++ kept

theorem Pushed.refl (housed : buffer.Housed) (memory : Memory) :
    Pushed [] buffer memory buffer memory :=
  ⟨.refl housed memory, rfl, fun _ => (List.append_nil _).symm⟩

theorem Pushed.trans (left : Pushed kept buffer memory later after)
    (right : Pushed more later after last final) :
    Pushed (kept ++ more) buffer memory last final := by
  refine ⟨left.confined.trans right.confined, ?_, ?_⟩
  · rw [right.count_eq, left.count_eq, List.length_append, Nat.add_assoc]
  · intro settled
    have between := left.confined.advance.settled settled
    rw [← left.confined.advance.make.allocator_eq] at between
    rw [right.elements_eq between, left.elements_eq settled, List.append_assoc]

theorem storeAt_of_fill {index : Nat} {place : ItemPlace} {opened : Memory}
    (opening : buffer.openPlace index memory = .ok place opened)
    (filling : buffer.fill place value opened = .ok () after) :
    ∃ offset type bytes, buffer.layout.singleItem? = some (offset, type) ∧
      type.encode buffer.layout.isNative buffer.layout.bigEndian value = .ok bytes ∧
      after = buffer.storeAt index offset bytes memory := by
  rcases openPlace_cases buffer index memory with
    refused | ⟨extent, offset, type, block, single, cleared⟩
  · rw [refused] at opening
    cases opening
  · rw [cleared] at opening
    cases opening
    unfold fill at filling
    dsimp only at filling
    cases encoded : type.encode buffer.layout.isNative buffer.layout.bigEndian value with
    | error fault =>
        rw [encoded] at filling
        cases filling
    | ok bytes =>
        rw [encoded] at filling
        cases filling
        refine ⟨offset, type, bytes, single, encoded, ?_⟩
        simp only [storeAt, writeAt, block, elementStart, Nat.add_assoc]

theorem elements_storeAt_next {offset : Nat} {type : FieldType} {bytes : Bytes}
    (housed : buffer.Housed) (held : buffer.Held memory)
    (single : buffer.layout.singleItem? = some (offset, type))
    (encoded : type.encode buffer.layout.isNative buffer.layout.bigEndian value = .ok bytes)
    (room : (buffer.count + 1) * buffer.layout.size ≤ buffer.blockSize) :
    Buffer.elements { buffer with count := buffer.count + 1 }
        (buffer.storeAt buffer.count offset bytes memory) =
      buffer.elements memory ++ [type.decode buffer.layout.bigEndian bytes] := by
  have length := FieldType.length_encode encoded
  have whole : type.size ≤ bytes.length := by
    rw [length]
    exact type.size_le_written
  rw [elements_recount, elements_storeAt_count housed held,
    slot_storeAt_self housed.read single held room, List.take_append_of_le_length whole,
    FieldType.decode_take_encode encoded]

/-- All that a push does when it succeeds. -/
theorem push_ok (ran : BufferM.push value ⟨buffer, memory⟩ = .ok () state) :
    ∃ roomy between offset type bytes, buffer.makeRoom memory = .ok roomy between ∧
      roomy.layout.singleItem? = some (offset, type) ∧
      type.encode roomy.layout.isNative roomy.layout.bigEndian value = .ok bytes ∧
      state = ⟨{ roomy with count := roomy.count + 1 },
        roomy.storeAt roomy.count offset bytes between⟩ := by
  rw [push_eq] at ran
  cases made : buffer.makeRoom memory with
  | error fault after =>
      rw [made] at ran
      cases ran
  | ok roomy between =>
      rw [made] at ran
      dsimp only at ran
      cases opening : roomy.openPlace roomy.count between with
      | error fault after =>
          rw [opening] at ran
          cases ran
      | ok place opened =>
          rw [opening] at ran
          dsimp only at ran
          cases filling : roomy.fill place value opened with
          | error fault after =>
              rw [filling] at ran
              cases ran
          | ok done after =>
              rw [filling] at ran
              cases ran
              obtain ⟨offset, type, bytes, single, encoded, rfl⟩ := storeAt_of_fill opening filling
              exact ⟨roomy, between, offset, type, bytes, rfl, single, encoded, rfl⟩

/-- A push that went through appended what its value encodes to, and nothing else became visible. -/
theorem pushed_of_push (fits : memory.Fits buffer.allocator) (housed : buffer.Housed)
    (held : buffer.Held memory) (ran : BufferM.push value ⟨buffer, memory⟩ = .ok () state) :
    ∃ keeps, buffer.layout.kept? value = some keeps ∧
      Pushed [keeps] buffer memory state.buffer state.memory := by
  have confined : Confines False buffer memory (BufferM.push value) :=
    confines_push fits housed False.elim value
  have room := roomed_makeRoom fits housed
  unfold Confines at confined
  rw [ran] at confined
  obtain ⟨roomy, between, offset, type, bytes, made, single, encoded, rfl⟩ := push_ok ran
  rw [made] at room
  obtain ⟨-, reserved⟩ := room
  have space := reserved.room_le
  rw [← reserved.count_eq] at space
  refine ⟨type.decode roomy.layout.bigEndian bytes, ?_, confined, ?_, ?_⟩
  · rw [← reserved.advance.make.layout_eq, Layout.kept?, single]
    simp only [encoded]
  · exact congrArg (· + 1) reserved.count_eq
  · intro settled
    rw [← reserved.elements_eq housed settled]
    exact elements_storeAt_next (reserved.still_housed housed) (reserved.held held) single encoded
      space

/-- An extension that failed at a value behind those that were pushed. -/
structure Stopped (values done kept : List Value) (cause : Fault)
    (before middle after : BufferState) : Prop where
  extended : BufferM.extend done before = .ok () middle
  kept_eq : done.mapM before.buffer.layout.kept? = some kept
  length_eq : kept.length = done.length
  pushed : Pushed kept before.buffer before.memory middle.buffer middle.memory
  failing : ∃ value rest, values = done ++ value :: rest ∧
    BufferM.push value middle = .error cause after

theorem stopped_of_extend (fits : memory.Fits buffer.allocator) (housed : buffer.Housed)
    (held : buffer.Held memory)
    (failed : BufferM.extend values ⟨buffer, memory⟩ = .error cause state) :
    ∃ done kept middle, Stopped values done kept cause ⟨buffer, memory⟩ middle state := by
  induction values generalizing buffer memory with
  | nil => cases failed
  | cons value rest ih =>
      rw [extend_cons] at failed
      cases ran : BufferM.push value ⟨buffer, memory⟩ with
      | error fault after =>
          rw [ran] at failed
          cases failed
          refine ⟨[], [], ⟨buffer, memory⟩, rfl, rfl, rfl, .refl housed memory, ?_⟩
          exact ⟨value, rest, rfl, ran⟩
      | ok done between =>
          rw [ran] at failed
          -- The buffer that the first push gives takes up the rest.
          obtain ⟨keeps, taken, once⟩ := pushed_of_push fits housed held ran
          obtain ⟨done, kept, middle, stopped⟩ := ih (once.confined.fits fits)
            once.confined.housed (once.confined.held held) failed
          obtain ⟨failing, behind, split, last⟩ := stopped.failing
          refine ⟨value :: done, keeps :: kept, middle, ?_, ?_, congrArg (· + 1) stopped.length_eq,
            once.trans stopped.pushed, failing, behind, ?_, last⟩
          · rw [extend_cons, ran]
            exact stopped.extended
          · have same := stopped.kept_eq
            rw [once.confined.advance.make.layout_eq] at same
            rw [List.mapM_cons, taken, same]
            rfl
          · rw [split, List.cons_append]

/-! ## Elements of another buffer -/

/-- The values are what the elements of a block show from an index on, each when its turn has
come. -/
def ReadInTurn (source : Buffer) (extent : Extent) : Nat → List Value → BufferState → Prop
  | _, [], _ => True
  | index, value :: rest, state =>
      source.elementFound state.memory extent index = .ok value ∧
        ∀ next, BufferM.push value state = .ok () next →
          ReadInTurn source extent (index + 1) rest next

theorem elementFound_error {source : Buffer} {extent : Extent} {index : Nat}
    (failed : source.elementFound memory extent index = .error cause) :
    cause.isRefusal = false := by
  unfold elementFound at failed
  split at failed
  · cases failed
    rfl
  · split at failed
    · cases failed
      rfl
    · cases failed

/-- An extension by elements that is refused is one by the values that were read until then. -/
theorem extend_of_extendFrom {source : Buffer} {extent : Extent} {index count : Nat}
    (refused : cause.isRefusal = true)
    (failed : BufferM.extendFrom source extent index count ⟨buffer, memory⟩ = .error cause state) :
    ∃ values, values.length ≤ count ∧ ReadInTurn source extent index values ⟨buffer, memory⟩ ∧
      BufferM.extend values ⟨buffer, memory⟩ = .error cause state := by
  induction count generalizing index buffer memory with
  | zero => cases failed
  | succ count ih =>
      rw [extendFrom_succ, element_answer] at failed
      cases found : source.elementFound memory extent index with
      | error fault =>
          rw [found] at failed
          cases failed
          rw [elementFound_error found] at refused
          cases refused
      | ok value =>
          rw [found] at failed
          simp only [answer] at failed
          cases ran : BufferM.push value ⟨buffer, memory⟩ with
          | error fault after =>
              rw [ran] at failed
              cases failed
              refine ⟨[value], Nat.succ_le_succ (Nat.zero_le count), ⟨found, ?_⟩, ?_⟩
              · exact fun _ _ => trivial
              · rw [extend_cons, ran]
          | ok done between =>
              rw [ran] at failed
              -- The next element is read from what the push gave, not from the memory before it.
              obtain ⟨values, bound, turns, extended⟩ := ih failed
              refine ⟨value :: values, Nat.succ_le_succ bound, ⟨found, ?_⟩, ?_⟩
              · intro next pushed
                cases ran.symm.trans pushed
                exact turns
              · rw [extend_cons, ran]
                exact extended

end Buffer

end LexKit
