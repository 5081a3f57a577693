import LexKit.Proofs.Scan.Rescan
import LexKit.Proofs.Workspace.Threshold

/-!
# Tokenizations line by line

What scans say of sources that are joined by line feeds, for tokenizations: of two sources of which
the first leaves no string open, and of the lexemes of one source.
-/

set_option autoImplicit false

namespace LexKit

/-- What is said of a source behind other tokens, where `count` bytes stand in front of it. -/
def Outcome.behind (front : List (Token Bytes)) (count : Nat) : Outcome Bytes → Outcome Bytes
  | .success tokens => .success (front ++ tokens.map (Token.shift count))
  | .failure reported => .failure ⟨reported.offset + count, reported.message⟩

namespace Workspace

private theorem scanOutcome_behind (front : List (Token Bytes)) (count : Nat) (scan : Scan) :
    scanOutcome ⟨front ++ scan.tokens.map (Token.shift count), scan.ending.shift count⟩ =
      (scanOutcome scan).behind front count := by
  obtain ⟨tokens, ending⟩ := scan
  cases ending with
  | complete => rfl
  | failed offset problem =>
      simp [scanOutcome, ScanEnding.shift, ScanEnding.failure?, Outcome.behind]

private theorem scanOutcome_complete {scan : Scan} (completed : scan.ending = .complete) :
    scanOutcome scan = .success scan.tokens := by
  rw [scanOutcome, completed]
  rfl

/-- Two sources with a line feed between them, of which the first is scanned strictly without a
failure. The tokens of the first come first, and then what the second gives, where every offset
counts the bytes in front. Where heaps had room for the payloads of both, one that does not run out
has room for all. -/
theorem tokenize_append_lineFeed {rules : ScanRules} {first second : Bytes}
    {strictly lateral : AllocatorId} {before after aside behind : Workspace}
    {tokens : List (Token BufferId)} {outcome : Outcome BufferId} (linewise : rules.Linewise)
    (solid : rules.markerBytes.head?.any Byte.isWhitespace = false)
    (fits : before.memory.Fits strictly) (fitsAside : aside.memory.Fits lateral)
    (closed : WorkspaceM.tokenize ⟨first, strictly, rules.strict⟩ before =
      .ok (.success tokens) after)
    (scanned : WorkspaceM.tokenize ⟨second, lateral, rules⟩ aside = .ok outcome behind) :
    let front := after.tokenContents tokens
    (∀ id workspace later result, workspace.memory.Fits id →
      WorkspaceM.tokenize ⟨first, id, rules⟩ workspace = .ok result later →
        later.outcomeContents result = .success front) ∧
    (∀ id workspace later result, workspace.memory.Fits id →
      WorkspaceM.tokenize ⟨first ++ Byte.lineFeed :: second, id, rules⟩ workspace =
          .ok result later →
        later.outcomeContents result =
          (behind.outcomeContents outcome).behind front (first.length + 1)) ∧
    (before.memory.allocator strictly = .heap → aside.memory.allocator lateral = .heap →
      ∀ id workspace, workspace.memory.allocator id = .heap →
        workspace.memory.machine = .unlimited →
        ∃ result later, WorkspaceM.tokenize ⟨first ++ Byte.lineFeed :: second, id, rules⟩
          workspace = .ok result later) := by
  obtain ⟨completed, contents⟩ := run_of_tokenize_success fits closed
  have same := Scan.run_eq_of_strict completed
  have joined := @Scan.run_append_lineFeed rules linewise solid first second completed
  refine ⟨?_, ?_, ?_⟩
  · intro id workspace later result room ran
    rw [outcomeContents_of_tokenize room ran, contents, same]
    exact scanOutcome_complete completed
  · intro id workspace later result room ran
    rw [outcomeContents_of_tokenize room ran, outcomeContents_of_tokenize fitsAside scanned,
      contents, joined, same]
    exact scanOutcome_behind _ _ _
  · intro heap heapAside id workspace isHeap unlimited
    refine tokenize_of_unlimited isHeap unlimited fun size member => ?_
    dsimp only at member
    rw [joined, same] at member
    obtain ⟨payload, ⟨token, inside, carried⟩, sized⟩ := mem_payloadLengths.mp member
    rcases List.mem_append.mp inside with old | late
    · exact countable_of_tokenize heap closed size
        (mem_payloadLengths.mpr ⟨payload, ⟨token, old, carried⟩, sized⟩)
    · obtain ⟨other, found, rfl⟩ := List.mem_map.mp late
      exact countable_of_tokenize heapAside scanned size
        (mem_payloadLengths.mpr ⟨payload, ⟨other, found, carried⟩, sized⟩)

private theorem linewise_default : ScanRules.default.Linewise :=
  ⟨by decide, by decide⟩

/-- A comment ends at the line feed, and a stray byte behind it fails at its place in the whole. -/
theorem tokenize_append_lineFeed_stray_byte :
    ∃ tokens after outcome behind result later,
      WorkspaceM.tokenize ⟨Utf8.encode "a // x", ⟨0⟩, ScanRules.default.strict⟩
          ⟨.ofHeap, #[]⟩ = .ok (.success tokens) after ∧
      WorkspaceM.tokenize ⟨Utf8.encode "\"b\" $", ⟨0⟩, .default⟩ ⟨.ofHeap, #[]⟩ =
          .ok outcome behind ∧
      WorkspaceM.tokenize ⟨Utf8.encode "a // x\n\"b\" $", ⟨0⟩, .default⟩
          ⟨.ofHeap, #[]⟩ = .ok result later ∧
      later.outcomeContents result = .failure ⟨11, "unexpected character '$'"⟩ := by
  have checked : (match WorkspaceM.tokenize ⟨Utf8.encode "a // x", ⟨0⟩, ScanRules.default.strict⟩
      ⟨.ofHeap, #[]⟩ with
    | .ok (.success tokens) _ => tokens.length == 1
    | _ => false) = true := by decide +kernel
  have checkedAside : (match WorkspaceM.tokenize ⟨Utf8.encode "\"b\" $", ⟨0⟩, .default⟩
      ⟨.ofHeap, #[]⟩ with
    | .ok (.failure reported) _ => reported == ⟨4, "unexpected character '$'"⟩
    | _ => false) = true := by decide +kernel
  have fits : Memory.Fits .ofHeap ⟨0⟩ := Memory.fits_of_heap rfl
  split at checked
  · rename_i tokens after closed
    split at checkedAside
    · rename_i reported behind scanned
      obtain ⟨-, said, returns⟩ :=
        tokenize_append_lineFeed linewise_default (by decide) fits fits closed scanned
      obtain ⟨result, later, ran⟩ := returns rfl rfl ⟨0⟩ ⟨.ofHeap, #[]⟩ rfl rfl
      refine ⟨tokens, after, _, behind, result, later, closed, scanned, ran, ?_⟩
      rw [said _ _ _ _ fits ran, eq_of_beq checkedAside]
      rfl
    · cases checkedAside
  · cases checked

/-- The lexemes of a source that was scanned without a failure, put on lines of their own, are
scanned to tokens that say the same. Where a heap had room for the payloads, one that does not run
out has room for them again. -/
theorem rescanned_of_tokenize {lexer : Lexer} {before after : Workspace}
    {tokens : List (Token BufferId)} (linewise : lexer.rules.Linewise)
    (worded : lexer.rules.symbols.Worded) (fits : before.memory.Fits lexer.allocator)
    (scanned : WorkspaceM.tokenize lexer before = .ok (.success tokens) after) :
    let printed := Scan.printed lexer.rules lexer.source
    (∀ id workspace later result, workspace.memory.Fits id →
      WorkspaceM.tokenize ⟨printed, id, lexer.rules⟩ workspace = .ok result later →
        ∃ again, result = .success again ∧
          (later.tokenContents again).map Token.lexeme =
            (after.tokenContents tokens).map Token.lexeme) ∧
    (before.memory.allocator lexer.allocator = .heap →
      ∀ id workspace, workspace.memory.allocator id = .heap →
        workspace.memory.machine = .unlimited →
        ∃ again later, WorkspaceM.tokenize ⟨printed, id, lexer.rules⟩ workspace =
          .ok (.success again) later) := by
  obtain ⟨completed, contents⟩ := run_of_tokenize_success fits scanned
  obtain ⟨completedAgain, same⟩ := Scan.run_printed linewise worded completed
  refine ⟨?_, ?_⟩
  · intro id workspace later result room ran
    have said := outcomeContents_of_tokenize room ran
    rw [scanOutcome_complete completedAgain] at said
    cases result with
    | success again =>
        injection said with said
        rw [contents, ← same]
        exact ⟨again, rfl, congrArg (List.map Token.lexeme) said⟩
    | failure reported => cases said
  · intro heap id workspace isHeap unlimited
    refine tokenize_success_of_affords (Memory.fits_of_heap isHeap)
      (Memory.affords_of_unlimited isHeap unlimited fun size member => ?_) completedAgain
    refine countable_of_tokenize heap scanned size (payloadLengths_subset ?_ member)
    intro token inside
    have lexeme : token.lexeme ∈ (Scan.run lexer.rules lexer.source).tokens.map Token.lexeme := by
      rw [← same]
      exact List.mem_map_of_mem inside
    obtain ⟨other, found, alike⟩ := List.mem_map.mp lexeme
    exact .inr ⟨other, found, congrArg Lexeme.payload? alike⟩

private theorem worded_default : SymbolTable.default.Worded := by decide

/-- A keyword, a name and a symbol touch, and a string lacks its end. -/
theorem rescanned_of_tokenize_open_string :
    ∃ tokens after again later,
      WorkspaceM.tokenize ⟨Utf8.encode "if(ifx<=1.) \"b", ⟨0⟩, .default⟩
          ⟨.ofHeap, #[]⟩ = .ok (.success tokens) after ∧
      Scan.printed .default (Utf8.encode "if(ifx<=1.) \"b") =
        Utf8.encode "if\n(\nifx\n<=\n1.\n)\n\"b" ∧
      WorkspaceM.tokenize ⟨Utf8.encode "if\n(\nifx\n<=\n1.\n)\n\"b", ⟨0⟩, .default⟩
          ⟨.ofHeap, #[]⟩ = .ok (.success again) later ∧
      (later.tokenContents again).map Token.lexeme =
        (after.tokenContents tokens).map Token.lexeme := by
  have checked : (match WorkspaceM.tokenize ⟨Utf8.encode "if(ifx<=1.) \"b", ⟨0⟩, .default⟩
      ⟨.ofHeap, #[]⟩ with
    | .ok (.success tokens) _ => tokens.length == 7
    | _ => false) = true := by decide +kernel
  have printed : Scan.printed .default (Utf8.encode "if(ifx<=1.) \"b") =
      Utf8.encode "if\n(\nifx\n<=\n1.\n)\n\"b" := by decide +kernel
  have fits : Memory.Fits .ofHeap ⟨0⟩ := Memory.fits_of_heap rfl
  split at checked
  · rename_i tokens after scanned
    obtain ⟨said, returns⟩ :=
      rescanned_of_tokenize linewise_default worded_default fits scanned
    obtain ⟨again, later, ran⟩ := returns rfl ⟨0⟩ ⟨.ofHeap, #[]⟩ rfl rfl
    obtain ⟨_, same, alike⟩ := said _ _ _ _ fits ran
    cases same
    dsimp only at ran
    rw [printed] at ran
    exact ⟨tokens, after, again, later, scanned, printed, ran, alike⟩
  · cases checked

end Workspace

end LexKit
