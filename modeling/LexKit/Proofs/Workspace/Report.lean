import LexKit.Proofs.Scan.Margin
import LexKit.Proofs.Source.Line
import LexKit.Proofs.Workspace.Threshold

/-!
# Reports of failed tokenizations

The position in a report counts line feeds, and the line under it is one of a list that carriage
returns divide too. Without a carriage return that stands alone the caret is under the byte where
the scan failed. With one, the line is cut short there, or another one is shown.
-/

set_option autoImplicit false

namespace LexKit

open Position (lineTail)
open Source (aheadOf lineOf loneReturns wholeLine)
open Utf8 (decodeLossy)

/-- The report with the caret behind `front` and under the beginning of `back`. -/
def caretReport (fileName message : String) (position : Position) (front back : List Char) :
    String :=
  let line := toString position.line
  let column := toString position.column
  let gutter := String.ofList (List.replicate (line.length + 1) ' ')
  "error: " ++ message ++ "\n" ++
    gutter ++ "--> " ++ fileName ++ ":" ++ line ++ ":" ++ column ++ "\n" ++
    gutter ++ "|\n" ++
    line ++ " | " ++ String.ofList (front ++ back) ++ "\n" ++
    gutter ++ "| " ++ String.ofList (front.map fun char => if char = '\t' then '\t' else ' ') ++ "^"

private theorem format_eq_caretReport {error : LexError} {front back : Bytes} (fileName : String)
    (shown : error.shownLine = front ++ back) (column : error.position.column = front.length + 1)
    (apart : decodeLossy (front ++ back) = decodeLossy front ++ decodeLossy back) :
    error.format fileName =
      caretReport fileName error.message error.position (decodeLossy front) (decodeLossy back) := by
  unfold LexError.format LexError.padding caretReport
  dsimp only
  rw [shown, column, Nat.add_sub_cancel, List.take_left, apart]

private theorem shownLine_toError (failure : Failure) {source : Bytes} {offset : Nat}
    (stands : failure.offset = offset) :
    (failure.toError source).shownLine =
      ((Source.lines source)[(aheadOf source offset).count Byte.lineFeed]?).getD [] := by
  rw [aheadOf, Position.count_lineHead, LexError.shownLine, Failure.toError, Position.ofOffset,
    stands, Int.toNat_natCast, Position.after, Nat.add_sub_cancel]

private theorem clear_default : ∀ entry ∈ SymbolTable.default.entries, Utf8.Clear entry.literal := by
  have ascii : ∀ entry ∈ SymbolTable.default.entries, ∀ byte ∈ entry.literal, byte < 0x80 := by
    decide +kernel
  exact fun entry member => .of_ascii (ascii entry member)

namespace Workspace

/-- With the default symbols, a tokenization that fails names a byte inside of a line of the source.
The position counts the line feeds in front of it and the bytes of its line up to it, and the line
is decoded in two parts there. If no carriage return stands alone up to the end of the line, the
report shows the line, with the caret under the second part. If one does in the line but none in
front of it, the line is cut off there; if one does in front of the line, the report shows a piece
of what is in front of the line. -/
theorem report_of_tokenize_failure {lexer : Lexer} {before after : Workspace} {failure : Failure}
    (symbols : lexer.rules.symbols = .default) (fits : before.memory.Fits lexer.allocator)
    (failed : WorkspaceM.tokenize lexer before = .ok (.failure failure) after) :
    ∃ offset : Nat, failure.offset = offset ∧ offset < lexer.source.length ∧
      let row := lineOf lexer.source offset
      let column := (lineTail (lexer.source.take offset)).length
      let error := failure.toError lexer.source
      row[column]? = lexer.source[offset]? ∧
      error.position =
        ⟨(lexer.source.take offset).count Byte.lineFeed + 1, column + 1, offset⟩ ∧
      decodeLossy row = decodeLossy (row.take column) ++ decodeLossy (row.drop column) ∧
      (loneReturns (aheadOf lexer.source offset) = 0 →
        loneReturns (wholeLine lexer.source offset) = 0 →
          ∀ fileName, error.format fileName =
            caretReport fileName failure.message error.position
              (decodeLossy (row.take column)) (decodeLossy (row.drop column))) ∧
      (loneReturns (aheadOf lexer.source offset) = 0 →
        error.shownLine =
          (wholeLine lexer.source offset).takeWhile (· != Byte.carriageReturn)) ∧
      (0 < loneReturns (aheadOf lexer.source offset) →
        error.shownLine <:+: aheadOf lexer.source offset) := by
  obtain ⟨offset, problem, ended, rfl⟩ := ending_of_tokenize_failure fits failed
  obtain ⟨⟨byte, found, solid⟩, clear⟩ := Scan.margin_of_run (symbols ▸ clear_default) ended
  obtain ⟨nonempty, back, line⟩ := Source.exists_lineOf_eq found solid
  have inside : offset < lexer.source.length := (List.getElem?_eq_some_iff.mp found).1
  have shown := @shownLine_toError ⟨offset, problem.message⟩ lexer.source offset rfl
  have clearTail : Utf8.Clear (lineTail (lexer.source.take offset)) := by
    rw [← Position.lineHead_append_lineTail (lexer.source.take offset)] at clear
    exact clear.of_append
  have position : (Failure.toError ⟨offset, problem.message⟩ lexer.source).position =
      ⟨(lexer.source.take offset).count Byte.lineFeed + 1,
        (lineTail (lexer.source.take offset)).length + 1, offset⟩ := by
    rw [Failure.toError, Position.ofOffset, Int.toNat_natCast, Position.after, List.length_take,
      Nat.min_eq_left inside.le]
  have paired (nothing : loneReturns (aheadOf lexer.source offset) = 0) :
      (Failure.toError ⟨offset, problem.message⟩ lexer.source).shownLine =
        (wholeLine lexer.source offset).takeWhile (· != Byte.carriageReturn) := by
    rw [shown, Source.getElem?_lines_of_paired nonempty nothing]
    rfl
  refine ⟨offset, rfl, inside, ?_, position, ?_, ?_, paired, ?_⟩
  · rw [line, found]
    simp
  · rw [line, List.take_left, List.drop_left]
    exact Utf8.decodeLossy_append _ clearTail
  · intro nothing alone fileName
    rw [line, List.take_left, List.drop_left]
    refine format_eq_caretReport fileName ?_ (congrArg Position.column position)
      (Utf8.decodeLossy_append _ clearTail)
    rw [paired nothing, Source.takeWhile_eq_lineOf alone, line]
  · intro alone
    obtain ⟨piece, listed, isInfix⟩ := Source.getElem?_lines_of_alone alone
    rw [shown, listed]
    exact isInfix

/-- Lines that end in both bytes, a tab, and bytes that form no character on both sides of the
caret. -/
theorem report_of_tokenize_failure_broken_character :
    let source : Bytes :=
      [0x61, 0x0D, 0x0A, 0x09, 0x22, 0xC3, 0xA9, 0xE2, 0x82, 0x22, 0x23, 0xE2, 0x0D, 0x0A, 0x62]
    ∃ failure after,
      WorkspaceM.tokenize ⟨source, ⟨0⟩, .default⟩ ⟨.ofHeap, #[]⟩ =
        .ok (.failure failure) after ∧
      (failure.toError source).format "input.scan" =
        "error: unexpected character '#'\n  --> input.scan:2:8\n  |\n" ++
          "2 | \t\"é\uFFFD\"#\uFFFD\n  | \t    ^" := by
  intro source
  have checked : (match WorkspaceM.tokenize ⟨source, ⟨0⟩, .default⟩
      ⟨.ofHeap, #[]⟩ with
    | .ok (.failure failure) _ => failure == ⟨10, "unexpected character '#'"⟩
    | _ => false) = true := by decide +kernel
  split at checked
  · rename_i failure after failed
    obtain rfl := eq_of_beq checked
    obtain ⟨offset, stands, -, -, position, -, points, -⟩ :=
      report_of_tokenize_failure rfl (Memory.fits_of_heap rfl) failed
    obtain rfl : offset = 10 := by
      have same : (10 : Int) = offset := stands
      omega
    refine ⟨_, after, failed, ?_⟩
    rw [points (by decide +kernel) (by decide +kernel), position]
    decide +kernel
  · cases checked

/-- A carriage return stands alone in front of the failing byte. The report shows what is in front
of it, and the caret is under nothing. -/
theorem cut_report_lone_return :
    let source := Utf8.encode "a\r#"
    ∃ failure after,
      WorkspaceM.tokenize ⟨source, ⟨0⟩, .default⟩ ⟨.ofHeap, #[]⟩ =
        .ok (.failure failure) after ∧
      failure.offset = 2 ∧ lineOf source 2 = source ∧
      (failure.toError source).format "input.scan" =
        "error: unexpected character '#'\n  --> input.scan:1:3\n  |\n1 | a\n  |  ^" ∧
      (failure.toError source).format "input.scan" ≠
        caretReport "input.scan" failure.message (failure.toError source).position
          (decodeLossy (source.take 2)) (decodeLossy (source.drop 2)) := by
  intro source
  have checked : (match WorkspaceM.tokenize ⟨source, ⟨0⟩, .default⟩
      ⟨.ofHeap, #[]⟩ with
    | .ok (.failure failure) _ => failure == ⟨2, "unexpected character '#'"⟩
    | _ => false) = true := by decide +kernel
  split at checked
  · rename_i failure after failed
    obtain rfl := eq_of_beq checked
    exact ⟨_, after, failed, rfl, by decide +kernel, by decide +kernel, by decide +kernel⟩
  · cases checked

end Workspace

end LexKit
