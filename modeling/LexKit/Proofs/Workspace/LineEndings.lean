import LexKit.Proofs.Workspace.Joining

/-!
# Lines and their endings

Lines that end with a line feed, or with a carriage return and a line feed, come back when the bytes
are cut into lines, whichever ending each of them has, whether the last one has an ending, and
however many blank lines stand around them. Nothing else is cut off: of several carriage returns in
front of a line feed only the last one goes.
-/

set_option autoImplicit false

namespace LexKit

namespace Text

inductive LineEnding where
  | lineFeed
  | both
deriving DecidableEq, Repr

def LineEnding.bytes : LineEnding → Bytes
  | .lineFeed => [Byte.lineFeed]
  | .both => [Byte.carriageReturn, Byte.lineFeed]

/-- A run without a line feed that could not be taken for one with half an ending. -/
structure IsLine (line : Bytes) : Prop where
  run : IsRun Byte.lineFeed line
  unended : line.getLast? ≠ some Byte.carriageReturn

/-- The bytes are the lines, each with an ending, which the last one may lack. A blank line is an
ending alone. -/
inductive Lined : Bytes → List Bytes → Prop where
  | nil : Lined [] []
  | blank {rest lines} (ending : LineEnding) :
      Lined rest lines → Lined (ending.bytes ++ rest) lines
  | last {line} : IsLine line → Lined line [line]
  | line {line rest lines} (ending : LineEnding) :
      IsLine line → Lined rest lines → Lined (line ++ ending.bytes ++ rest) (line :: lines)

variable {delimiter : UInt8} {bytes piece front line : Bytes} {lines : List Bytes}

/-! ## Pieces -/

theorem not_mem_of_mem_pieces (member : piece ∈ pieces delimiter bytes) : delimiter ∉ piece := by
  induction bytes generalizing piece with
  | nil =>
      cases List.mem_singleton.mp member
      exact List.not_mem_nil
  | cons byte rest ih =>
      obtain ⟨first, others, found⟩ := List.exists_cons_of_ne_nil (pieces_ne_nil delimiter rest)
      by_cases other : byte = delimiter
      · rw [other, pieces_cons_delimiter] at member
        rcases List.mem_cons.mp member with rfl | member
        · exact List.not_mem_nil
        · exact ih member
      · rw [pieces_cons_other other found] at member
        rw [found] at ih
        rcases List.mem_cons.mp member with rfl | member
        · exact (IsRun.cons other (ih List.mem_cons_self)).spares
        · exact ih (List.mem_cons_of_mem first member)

theorem subset_of_mem_pieces (member : piece ∈ pieces delimiter bytes) : piece ⊆ bytes := by
  induction bytes generalizing piece with
  | nil =>
      cases List.mem_singleton.mp member
      exact List.nil_subset _
  | cons byte rest ih =>
      obtain ⟨first, others, found⟩ := List.exists_cons_of_ne_nil (pieces_ne_nil delimiter rest)
      by_cases other : byte = delimiter
      · rw [other, pieces_cons_delimiter] at member
        rcases List.mem_cons.mp member with rfl | member
        · exact List.nil_subset _
        · exact List.subset_cons_of_subset byte (ih member)
      · rw [pieces_cons_other other found] at member
        rw [found] at ih
        rcases List.mem_cons.mp member with rfl | member
        · exact List.cons_subset_cons byte (ih List.mem_cons_self)
        · exact List.subset_cons_of_subset byte (ih (List.mem_cons_of_mem first member))

/-! ## Lines -/

theorem dropCarriageReturn_of_unended (unended : line.getLast? ≠ some Byte.carriageReturn) :
    dropCarriageReturn line = line :=
  if_neg unended

theorem dropCarriageReturn_append (line : Bytes) :
    dropCarriageReturn (line ++ [Byte.carriageReturn]) = line := by
  rw [dropCarriageReturn, List.getLast?_concat, if_pos rfl, List.dropLast_concat]

theorem dropCarriageReturn_subset (line : Bytes) : dropCarriageReturn line ⊆ line := by
  unfold dropCarriageReturn
  split
  · exact List.dropLast_subset line
  · exact List.Subset.refl line

/-- What stands in front of a line feed is a line of its own, unless it is blank. -/
theorem splitLines_append (spares : Byte.lineFeed ∉ front) (rest : Bytes) :
    splitLines (front ++ Byte.lineFeed :: rest) =
      [dropCarriageReturn front].filter (fun line => !line.isEmpty) ++ splitLines rest := by
  unfold splitLines
  rw [pieces_append_delimiter spares, List.map_cons, ← List.singleton_append, List.filter_append]

theorem splitLines_of_spares (spares : Byte.lineFeed ∉ front) :
    splitLines front = [dropCarriageReturn front].filter fun line => !line.isEmpty := by
  unfold splitLines
  rw [pieces_of_spares spares, List.map_singleton]

theorem IsLine.kept (isLine : IsLine line) :
    [line].filter (fun line => !line.isEmpty) = [line] := by
  simp [isLine.run.nonempty]

theorem Lined.splitLines_eq (lined : Lined bytes lines) : splitLines bytes = lines := by
  induction lined with
  | nil => rfl
  | @blank rest lines ending _ ih =>
      cases ending with
      | lineFeed => exact (splitLines_append List.not_mem_nil rest).trans ih
      | both =>
          have spares : Byte.lineFeed ∉ [Byte.carriageReturn] := by decide
          exact (splitLines_append spares rest).trans ih
  | last isLine =>
      rw [splitLines_of_spares isLine.run.spares, dropCarriageReturn_of_unended isLine.unended,
        isLine.kept]
  | @line line rest lines ending isLine _ ih =>
      cases ending with
      | lineFeed =>
          rw [LineEnding.bytes, List.append_assoc, List.singleton_append,
            splitLines_append isLine.run.spares, dropCarriageReturn_of_unended isLine.unended,
            isLine.kept, ih]
          rfl
      | both =>
          have spares : Byte.lineFeed ∉ line ++ [Byte.carriageReturn] := by
            rw [List.mem_append, not_or]
            exact ⟨isLine.run.spares, by decide⟩
          have same : line ++ LineEnding.both.bytes ++ rest =
              line ++ [Byte.carriageReturn] ++ Byte.lineFeed :: rest := by
            simp [LineEnding.bytes]
          rw [same, splitLines_append spares, dropCarriageReturn_append, isLine.kept, ih]
          rfl

theorem isRun_of_mem_splitLines (member : line ∈ splitLines bytes) : IsRun Byte.lineFeed line := by
  obtain ⟨among, nonempty⟩ := List.mem_filter.mp member
  obtain ⟨piece, known, rfl⟩ := List.mem_map.mp among
  refine ⟨by simpa using nonempty, ?_⟩
  exact fun fed => not_mem_of_mem_pieces known (dropCarriageReturn_subset piece fed)

/-- Without carriage returns, to cut into lines is to cut at the line feeds. -/
theorem splitLines_eq_split (spares : Byte.carriageReturn ∉ bytes) :
    splitLines bytes = split Byte.lineFeed bytes := by
  have kept : ∀ piece ∈ pieces Byte.lineFeed bytes, dropCarriageReturn piece = piece := by
    intro piece member
    refine dropCarriageReturn_of_unended fun ended => spares ?_
    exact subset_of_mem_pieces member (List.mem_of_getLast? ended)
  unfold splitLines split
  rw [List.map_congr_left kept, List.map_id']

end Text

namespace Workspace

/-- With enough room, bytes are cut into texts of their lines, however these end. No text is blank
or has a line feed in it. Without carriage returns, cutting into lines does what cutting at line
feeds does, be it for want of room. -/
theorem lines_cut_and_joined (allocator : AllocatorId) (data : Part) (before : Workspace)
    (fits : before.memory.Fits allocator) :
    (before.memory.Affords allocator
        ((Text.splitLines (before.partBytes data)).map List.length) →
      ∃ names after,
        WorkspaceM.textsOf allocator (Text.splitLines (before.partBytes data)) before =
          .ok names after ∧
        (∀ lines, Text.Lined (before.partBytes data) lines → names.map after.content = lines) ∧
        ∀ name ∈ names, after.content name ≠ [] ∧ Byte.lineFeed ∉ after.content name) ∧
    (Byte.carriageReturn ∉ before.partBytes data →
      WorkspaceM.textsOf allocator (Text.splitLines (before.partBytes data)) before =
        WorkspaceM.textsOf allocator (Text.split Byte.lineFeed (before.partBytes data)) before) := by
  constructor
  · intro affords
    obtain ⟨names, after, made, -, -, contents⟩ := textsOf_of_affords fits affords
    refine ⟨names, after, made, ?_, ?_⟩
    · intro lines lined
      rw [contents, lined.splitLines_eq]
    · intro name member
      have line : after.content name ∈ Text.splitLines (before.partBytes data) := by
        rw [← contents]
        exact List.mem_map_of_mem member
      obtain ⟨nonempty, spares⟩ := Text.isRun_of_mem_splitLines line
      exact ⟨nonempty, spares⟩
  · intro spares
    rw [Text.splitLines_eq_split spares]

/-- Blank lines of both kinds, carriage returns inside of a line, and a last line without an
ending. -/
def endingsRun : List WorkspaceCommand :=
  [.onBuffers (.newArena 16), .textOf ⟨0⟩ (.bytes (Utf8.encode "\r\nab\r\n\n\rc\nd"))]

theorem lines_cut_and_joined_mixed :
    (∃ names after,
      WorkspaceM.textsOf ⟨0⟩ (Text.splitLines (Utf8.encode "\r\nab\r\n\n\rc\nd"))
        (empty.followAll endingsRun) = .ok names after ∧
      names.map after.content = [Utf8.encode "ab", Utf8.encode "\rc", Utf8.encode "d"]) ∧
    WorkspaceM.textsOf ⟨0⟩ (Text.splitLines (Utf8.encode "a\n\nb"))
        (empty.followAll endingsRun) =
      WorkspaceM.textsOf ⟨0⟩ (Text.split Byte.lineFeed (Utf8.encode "a\n\nb"))
        (empty.followAll endingsRun) := by
  have fits := (leaves_followAll (orderly_empty .unlimited)
    (show empty.confinesAll endingsRun = true by decide +kernel)).orderly.standing.fits ⟨0⟩
  have text : (empty.followAll endingsRun).content ⟨0⟩ =
      Utf8.encode "\r\nab\r\n\n\rc\nd" := by decide +kernel
  have isLine : ∀ line ∈ [Utf8.encode "ab", Utf8.encode "\rc", Utf8.encode "d"],
      Text.IsLine line := by
    intro line member
    refine ⟨⟨?_, ?_⟩, ?_⟩ <;> revert line <;> decide +kernel
  have lined := Text.Lined.blank .both <| .line .both (isLine (Utf8.encode "ab") (by simp)) <|
    .blank .lineFeed <| .line .lineFeed (isLine (Utf8.encode "\rc") (by simp)) <|
    .last (isLine (Utf8.encode "d") (by simp))
  have plain := (lines_cut_and_joined ⟨0⟩ (.string "a\n\nb") (empty.followAll endingsRun) fits).2
  obtain ⟨names, after, made, cut, -⟩ :=
    (lines_cut_and_joined ⟨0⟩ (.text ⟨0⟩) (empty.followAll endingsRun) fits).1 (by decide +kernel)
  rw [partBytes, text] at made cut
  exact ⟨⟨names, after, made, cut _ lined⟩, plain (by decide +kernel)⟩

end Workspace

end LexKit
