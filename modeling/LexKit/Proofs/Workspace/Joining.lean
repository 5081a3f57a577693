import LexKit.Proofs.Text.Pieces
import LexKit.Proofs.Workspace.Holding
import LexKit.Proofs.Workspace.Interference

/-!
# Joining and cutting texts

A joined text asks for its block once, before anything is appended. The room it asks for is what the
parts and the separators take, so that no append asks again and none of the block is left over.
Cutting makes one text after the other, and each keeps its content while the others are made.
-/

set_option autoImplicit false

namespace LexKit

inductive Part where
  | bytes (value : Bytes)
  | string (value : String)
  | text (source : BufferId)
deriving DecidableEq, Repr

/-- Between two records, one call obtained `size` bytes. For no bytes there was no call. -/
def Obtained (id : AllocatorId) (size : Nat) (earlier later : List AllocatorCall) : Prop :=
  if size = 0 then later = earlier
  else ∃ extent : Extent, extent.size = size ∧
    later = .allocate id size (some extent) :: earlier

namespace Workspace

open Running

variable {allocator : AllocatorId} {id : BufferId} {before : Workspace} {memory base : Memory}
  {bytes front : Bytes} {rest : List Nat}

def partBytes (workspace : Workspace) : Part → Bytes
  | .bytes value => value
  | .string value => Utf8.encode value
  | .text source => workspace.content source

def joined (workspace : Workspace) (separator : Option Part) (parts : List Part) : Bytes :=
  List.intercalate (separator.elim [] workspace.partBytes) (parts.map workspace.partBytes)

/-! ## Cutting -/

theorem textsOf_of_affords {pieces : List Bytes} (fits : before.memory.Fits allocator)
    (affords : before.memory.Affords allocator (pieces.map List.length)) :
    ∃ names after, WorkspaceM.textsOf allocator pieces before = .ok names after ∧
      Extended allocator before after ∧ (∀ name ∈ names, after.Keeps allocator name) ∧
      names.map after.content = pieces := by
  induction pieces generalizing before with
  | nil => exact ⟨[], before, rfl, .refl allocator before, by simp, rfl⟩
  | cons piece pieces ih =>
      obtain ⟨name, between, made, left⟩ := textOfBytes_of_affords affords
      obtain ⟨extended, kept, content⟩ := extended_of_textOfBytes fits made
      obtain ⟨names, after, others, further, keeps, contents⟩ :=
        ih (extended.changed.fits allocator fits) left
      refine ⟨name :: names, after, ?_, extended.trans further, ?_, ?_⟩
      · unfold WorkspaceM.textsOf at others ⊢
        rw [List.mapM_cons, run_bind, made]
        dsimp only
        rw [run_bind, others]
        rfl
      · intro other member
        rcases List.mem_cons.mp member with rfl | member
        · exact further.keeps kept
        · exact keeps other member
      · rw [List.map_cons, further.content_eq kept, content, contents]

/-! ## Joining -/

theorem joinedLength_eq (separator : Bytes) (parts : List Bytes) :
    WorkspaceM.joinedLength separator parts = (List.intercalate separator parts).length := by
  unfold WorkspaceM.joinedLength
  induction parts with
  | nil => rfl
  | cons part rest ih =>
      cases rest with
      | nil => simp
      | cons next rest =>
          rw [List.intercalate_cons_cons, List.length_append, List.length_append, ← ih,
            List.flatten_cons, List.length_append, List.length_cons, List.length_cons,
            Nat.add_sub_cancel, Nat.add_sub_cancel, Nat.mul_succ]
          omega

/-- The text has the bytes at the front of its block. Since `base` its allocator was left alone. -/
structure Gathered (id : BufferId) (allocator : AllocatorId) (block : Option Extent)
    (base : Memory) (bytes : Bytes) (workspace : Workspace) : Prop where
  index_lt : id.index < workspace.buffers.size
  buffer_eq : workspace.buffer id = .stored allocator block bytes.length
  fits : workspace.memory.Fits allocator
  settled : (workspace.buffer id).Settled workspace.memory allocator
  byteAt_eq : ∀ place (inside : place < bytes.length),
    (workspace.buffer id).byteAt workspace.memory place = bytes[place]
  unasked : base.Unasked workspace.memory

theorem appendBytes_of_room (buffer : Buffer) (single : buffer.layout.size = 1)
    (room : buffer.count + bytes.length ≤ buffer.blockSize) (memory : Memory) :
    ∃ after, buffer.appendBytes bytes memory =
        .ok { buffer with count := buffer.count + bytes.length } after ∧
      memory.Unasked after := by
  by_cases nonempty : bytes = []
  · subst nonempty
    exact ⟨memory, rfl, .refl memory⟩
  · have enough := Buffer.reserve_eq (show buffer.layout.size ≠ 0 by omega)
      (buffer.count + bytes.length : Nat) memory
    rw [single, Nat.div_one, if_pos (Int.ofNat_le.mpr room)] at enough
    refine ⟨buffer.writeAt buffer.count bytes memory, ?_, ?_⟩
    · rw [Buffer.appendBytes_eq nonempty, enough]
    · unfold Buffer.writeAt
      cases buffer.block <;> exact ⟨rfl, rfl, rfl⟩

namespace Gathered

variable {block : Option Extent}

/-- One part more goes behind those that were gathered. There is room for it from the beginning, so
the allocator is not asked again. -/
theorem append (gathered : Gathered id allocator block base front before) (bytes : Bytes)
    (room : front.length + bytes.length ≤ (Buffer.stored allocator block 0).blockSize) :
    ∃ after, WorkspaceM.onBuffer id (BufferM.appendBytes bytes) before = .ok () after ∧
      Gathered id allocator block base (front ++ bytes) after := by
  obtain ⟨memory, buffers⟩ := before
  obtain ⟨index_lt, buffer_eq, fits, settled, byteAt_eq, unasked⟩ := gathered
  rw [buffer_eq] at settled byteAt_eq
  obtain ⟨after, appended, still⟩ :=
    appendBytes_of_room (.stored allocator block front.length) rfl room memory
  have spec := Buffer.appended_of_appendBytes Nat.one_pos fits settled appended
  have known (later : Buffer) :
      (Workspace.mk after (buffers.setIfInBounds id.index later)).buffer id = later :=
    buffer_setIfInBounds_self index_lt later after
  refine ⟨⟨after, buffers.setIfInBounds id.index
    (.stored allocator block (front.length + bytes.length))⟩, ?_, ?_⟩
  · unfold buffer at buffer_eq
    simp only [WorkspaceM.onBuffer, BufferM.appendBytes, BufferM.replace, buffer_eq, appended]
    rfl
  · refine ⟨by simpa using index_lt, ?_, spec.advance.fits fits, ?_, ?_, unasked.trans still⟩
    · rw [known, List.length_append]
    · rw [known]
      exact spec.advance.settled settled
    · intro place inside
      rw [known, List.getElem_append]
      refine (spec.byteAt_eq place).trans ?_
      rw [List.length_append] at inside
      change (if front.length ≤ place then _ else _) = _
      by_cases behind : front.length ≤ place
      · rw [if_pos behind, dif_neg (Nat.not_lt_of_le behind)]
        change bytes[place - front.length]?.getD _ = _
        rw [List.getElem?_eq_getElem (by omega), Option.getD_some]
      · rw [if_neg behind, dif_pos (Nat.lt_of_not_le behind)]
        exact byteAt_eq place _

/-- Parts are appended to a block that has room for all of them. -/
theorem appendParts (gathered : Gathered id allocator block base front before)
    (separator : Bytes) (parts : List Bytes)
    (room : front.length + (List.intercalate separator parts).length ≤
      (Buffer.stored allocator block 0).blockSize) :
    ∃ after, WorkspaceM.appendParts id separator parts before = .ok () after ∧
      Gathered id allocator block base (front ++ List.intercalate separator parts) after := by
  induction parts generalizing front before with
  | nil => exact ⟨before, rfl, by simpa using gathered⟩
  | cons part rest ih =>
      cases rest with
      | nil =>
          rw [List.intercalate_singleton] at room ⊢
          exact gathered.append part room
      | cons next rest =>
          rw [List.intercalate_cons_cons, List.length_append, List.length_append] at room
          obtain ⟨first, ran, withPart⟩ := gathered.append part (by omega)
          obtain ⟨second, separated, withSeparator⟩ :=
            withPart.append separator (by rw [List.length_append]; omega)
          obtain ⟨after, others, all⟩ := ih withSeparator (by
            rw [List.length_append, List.length_append]
            omega)
          refine ⟨after, ?_, ?_⟩
          · unfold WorkspaceM.appendParts
            rw [run_bind, ran]
            dsimp only
            rw [run_bind, separated]
            exact others
          · rw [List.intercalate_cons_cons]
            simpa only [List.append_assoc] using all

theorem content_eq (gathered : Gathered id allocator block base bytes before)
    (room : bytes.length ≤ (Buffer.stored allocator block 0).blockSize) :
    before.content id = bytes := by
  have buffer_eq := gathered.buffer_eq
  refine Buffer.content_eq gathered.settled.held ?_ ?_ gathered.byteAt_eq
  · rw [buffer_eq]
    rfl
  · rw [buffer_eq]
    exact room

end Gathered

/-- A new text obtains the room that is reserved in it, and nothing else. -/
theorem reserve_of_affords {length : Nat} (fits : memory.Fits allocator)
    (affords : memory.Affords allocator (length :: rest)) :
    ∃ block after, (Buffer.stored allocator none 0).reserve length memory =
        .ok (.stored allocator block 0) after ∧
      (Buffer.stored allocator block 0).Settled after allocator ∧ after.Fits allocator ∧
      (Buffer.stored allocator block 0).blockSize = length ∧
      Obtained allocator length memory.calls after.calls ∧ after.Affords allocator rest := by
  have grown := Buffer.reserve_eq
    (show (Buffer.stored allocator none 0).layout.size ≠ 0 from Nat.one_ne_zero)
    (length : Nat) memory
  rw [Buffer.blockSize_of_no_block rfl, Nat.zero_div, Int.natCast_zero] at grown
  by_cases nothing : length = 0
  · subst nothing
    refine ⟨none, memory, grown, ?_, fits, rfl, rfl, Memory.affords_zero_cons.mp affords⟩
    intro extent known
    cases known
  · obtain ⟨extent, after, supplied, left⟩ :=
      Memory.allocate_of_affords (Nat.pos_of_ne_zero nothing) affords
    have granted := Memory.granted_of_allocate fits supplied
    have size : extent.size = length := Int.ofNat_inj.mp granted.size_eq
    have one : (length : Int) * (Buffer.stored allocator none 0).layout.size = length :=
      Int.mul_one _
    rw [if_neg (by omega), one,
      show Memory.allocate (Buffer.stored allocator none 0).allocator length memory = _ from
        supplied] at grown
    refine ⟨some extent, after, grown, ?_, granted.changed.fits allocator fits, size, ?_, left⟩
    · intro other same
      cases same
      exact granted.settled
    · rw [Obtained, if_neg nothing]
      exact ⟨extent, size, Memory.calls_of_allocate supplied⟩

theorem concat_of_affords {separator : Bytes} {parts : List Bytes}
    (fits : before.memory.Fits allocator)
    (affords : before.memory.Affords allocator
      ((List.intercalate separator parts).length :: rest)) :
    ∃ id block base after, WorkspaceM.concat allocator separator parts before = .ok id after ∧
      Gathered id allocator block base (List.intercalate separator parts) after ∧
      (Buffer.stored allocator block 0).blockSize = (List.intercalate separator parts).length ∧
      Obtained allocator (List.intercalate separator parts).length before.memory.calls base.calls ∧
      base.Affords allocator rest := by
  obtain ⟨memory, buffers⟩ := before
  obtain ⟨block, base, reserved, settled, fits, blockSize, obtained, left⟩ :=
    reserve_of_affords fits affords
  have known : (Workspace.mk memory (buffers.push (.stored allocator none 0))).buffer
      ⟨buffers.size⟩ = .stored allocator none 0 := buffer_push_self _ _ _
  have now : (Workspace.mk base ((buffers.push (.stored allocator none 0)).setIfInBounds
      buffers.size (.stored allocator block 0))).buffer ⟨buffers.size⟩ =
        .stored allocator block 0 :=
    buffer_setIfInBounds_self (show buffers.size < _ by simp) _ _
  have blank : Gathered ⟨buffers.size⟩ allocator block base []
      ⟨base, (buffers.push (.stored allocator none 0)).setIfInBounds buffers.size
        (.stored allocator block 0)⟩ :=
    ⟨by simp, now, fits, by rw [now]; exact settled,
      fun _ inside => absurd inside (Nat.not_lt_zero _), .refl base⟩
  obtain ⟨after, appended, gathered⟩ := blank.appendParts separator parts
    (by rw [blockSize, List.length_nil, Nat.zero_add])
  refine ⟨⟨buffers.size⟩, block, base, after, ?_, gathered, blockSize, obtained, left⟩
  have made : WorkspaceM.newText allocator 0 ⟨memory, buffers⟩ =
      .ok ⟨buffers.size⟩ ⟨memory, buffers.push (.stored allocator none 0)⟩ := rfl
  have roomy : WorkspaceM.onBuffer ⟨buffers.size⟩
      (BufferM.reserve (WorkspaceM.joinedLength separator parts))
      ⟨memory, buffers.push (.stored allocator none 0)⟩ =
      .ok () ⟨base, (buffers.push (.stored allocator none 0)).setIfInBounds buffers.size
        (.stored allocator block 0)⟩ := by
    unfold buffer at known
    simp only [WorkspaceM.onBuffer, BufferM.reserve, BufferM.replace, known, joinedLength_eq,
      reserved]
  unfold WorkspaceM.concat
  simp only [run_bind, made, roomy, appended]
  rfl

/-! ## Both -/

/-- With enough room, cutting gives texts of the runs, and joining a text of the joined bytes that
asked for exactly these. Runs that are joined with the delimiter come back when they are cut. -/
theorem cut_and_joined (allocator : AllocatorId) (delimiter : UInt8) (before : Workspace)
    (fits : before.memory.Fits allocator) :
    (∀ data : Part,
      let pieces := Text.split delimiter (before.partBytes data)
      before.memory.Affords allocator (pieces.map List.length) →
      ∃ names after, WorkspaceM.textsOf allocator pieces before = .ok names after ∧
        ∀ runs, Text.Runs delimiter (before.partBytes data) runs ↔
          runs = names.map after.content) ∧
    (∀ (separator : Part) (parts : List Part), before.partBytes separator = [delimiter] →
      (∀ part ∈ parts, Text.IsRun delimiter (before.partBytes part)) →
      before.memory.Affords allocator ((before.joined separator parts).length ::
        parts.map fun part => (before.partBytes part).length) →
      ∃ id between names after,
        WorkspaceM.concat allocator [delimiter] (parts.map before.partBytes) before =
          .ok id between ∧
        WorkspaceM.textsOf allocator (Text.split delimiter (between.content id)) between =
          .ok names after ∧
        names.map after.content = parts.map before.partBytes) ∧
    ∀ (separator : Option Part) (parts : List Part),
      let bytes := before.joined separator parts
      before.memory.Affords allocator [bytes.length] →
      ∃ id after,
        WorkspaceM.concat allocator (separator.elim [] before.partBytes)
          (parts.map before.partBytes) before = .ok id after ∧
        after.content id = bytes ∧ (after.buffer id).count = bytes.length ∧
        (after.buffer id).capacity = .ok bytes.length ∧
        Obtained allocator bytes.length before.memory.calls after.memory.calls := by
  refine ⟨?_, ?_, ?_⟩
  · intro data pieces affords
    obtain ⟨names, after, made, -, -, contents⟩ := textsOf_of_affords fits affords
    refine ⟨names, after, made, ?_⟩
    intro runs
    rw [contents]
    exact Text.runs_iff_split
  · intro separator parts single each affords
    unfold joined at affords
    rw [Option.elim_some, single] at affords
    obtain ⟨id, block, base, between, made, gathered, blockSize, -, left⟩ :=
      concat_of_affords fits affords
    have content := gathered.content_eq (Nat.le_of_eq blockSize.symm)
    have cut : Text.split delimiter (between.content id) = parts.map before.partBytes := by
      rw [content]
      refine Text.split_intercalate ?_
      intro run member
      obtain ⟨part, known, rfl⟩ := List.mem_map.mp member
      exact each part known
    have room : between.memory.Affords allocator
        ((Text.split delimiter (between.content id)).map List.length) := by
      rw [cut, List.map_map, gathered.unasked.affords_iff]
      exact left
    obtain ⟨names, after, texts, -, -, contents⟩ := textsOf_of_affords gathered.fits room
    exact ⟨id, between, names, after, made, texts, contents.trans cut⟩
  · intro separator parts bytes affords
    obtain ⟨id, block, base, after, made, gathered, blockSize, obtained, -⟩ :=
      concat_of_affords fits affords
    refine ⟨id, after, made, gathered.content_eq (Nat.le_of_eq blockSize.symm), ?_, ?_, ?_⟩
    · rw [gathered.buffer_eq]
      rfl
    · rw [gathered.buffer_eq]
      change Except.ok ((Buffer.stored allocator block 0).blockSize / 1) = _
      rw [Nat.div_one, blockSize]
      rfl
    · rw [gathered.unasked.calls_eq]
      exact obtained

/-- A comma in front, behind and twice in the middle of a text that lies in an arena. -/
def commaRun : List WorkspaceCommand :=
  [.onBuffers (.newArena 20), .textOf ⟨0⟩ (.bytes (Utf8.encode ",ab,,c,"))]

theorem cut_and_joined_commas :
    (∃ names after, WorkspaceM.textsOf ⟨0⟩ (Text.split 44 (Utf8.encode ",ab,,c,"))
        (empty.followAll commaRun) = .ok names after ∧
      names.map after.content = [Utf8.encode "ab", Utf8.encode "c"]) ∧
    (∃ id between names after,
      WorkspaceM.concat ⟨0⟩ [44] [Utf8.encode "ab", Utf8.encode "c"] (empty.followAll commaRun) =
        .ok id between ∧
      WorkspaceM.textsOf ⟨0⟩ (Text.split 44 (between.content id)) between = .ok names after ∧
      names.map after.content = [Utf8.encode "ab", Utf8.encode "c"]) ∧
    ∃ id after,
      WorkspaceM.concat ⟨0⟩ (Utf8.encode "--") [Utf8.encode ",ab,,c,", [], Utf8.encode "c"]
        (empty.followAll commaRun) = .ok id after ∧
      after.content id = Utf8.encode ",ab,,c,----c" ∧ (after.buffer id).capacity = .ok 12 := by
  have fits := (leaves_followAll (orderly_empty .unlimited)
    (show empty.confinesAll commaRun = true by decide +kernel)).orderly.standing.fits ⟨0⟩
  obtain ⟨cut, returned, made⟩ := cut_and_joined ⟨0⟩ 44 (empty.followAll commaRun) fits
  have text : (empty.followAll commaRun).content ⟨0⟩ = Utf8.encode ",ab,,c," := by decide +kernel
  have pieces : Text.split 44 (Utf8.encode ",ab,,c,") = [Utf8.encode "ab", Utf8.encode "c"] := by
    decide +kernel
  refine ⟨?_, ?_, ?_⟩
  · obtain ⟨names, after, ran, runs⟩ := cut (.text ⟨0⟩) (by decide +kernel)
    rw [partBytes, text] at ran runs
    exact ⟨names, after, ran, ((runs _).mp (Text.runs_iff_split.mpr rfl)).symm.trans pieces⟩
  · exact returned (.string ",") [.bytes (Utf8.encode "ab"), .string "c"] (by decide +kernel)
      (by
        intro part member
        refine ⟨?_, ?_⟩
        · revert part
          decide +kernel
        · revert part
          decide +kernel)
      (by decide +kernel)
  · obtain ⟨id, after, ran, content, -, capacity, -⟩ :=
      made (some (.string "--")) [.text ⟨0⟩, .bytes [], .string "c"] (by decide +kernel)
    refine ⟨id, after, ?_, content.trans ?_, capacity.trans ?_⟩
    · rw [← text]
      exact ran
    · decide +kernel
    · decide +kernel

end Workspace

end LexKit
