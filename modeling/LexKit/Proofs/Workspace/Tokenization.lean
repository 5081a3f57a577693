import LexKit.Proofs.Scan.Loop
import LexKit.Proofs.Scan.Tiling
import LexKit.Proofs.Scan.Truncation
import LexKit.Proofs.Workspace.Threshold

/-!
# Tokenizations and their sources

What a tokenization says of the source. One that succeeds tiles the source with its tokens, whatever
allocator holds the payloads. One that fails names the place and the only cause that fits it, and
the bytes in front of that place can be tokenized. On a heap with room for the payloads there is no
third case.
-/

set_option autoImplicit false

namespace LexKit.Workspace

/-- A tokenization that succeeds tiles its source: the tokens, with the contents of their payloads,
are all that stands there but whitespace and comments. -/
theorem tiling_of_tokenize_success {lexer : Lexer} {before after : Workspace}
    {tokens : List (Token BufferId)} (fits : before.memory.Fits lexer.allocator)
    (succeeded : WorkspaceM.tokenize lexer before = .ok (.success tokens) after) :
    ∃ stops, Tiling lexer.rules lexer.source 0 (after.tokenContents tokens) stops := by
  obtain ⟨completed, contents⟩ := run_of_tokenize_success fits succeeded
  obtain ⟨stops, tiled⟩ := Scan.tiling_of_complete completed
  rw [contents]
  exact ⟨stops, tiled⟩

/-- An arena of sixteen bytes, of which one is in use, holds the payloads of an identifier and of a
string without an end; a comment stands between them. -/
theorem tiling_of_tokenize_success_in_arena :
    ∃ tokens after,
      Memory.Fits (.ofArena 16 1) ⟨0⟩ ∧
      WorkspaceM.tokenize ⟨Utf8.encode "ab // c\n\"d", ⟨0⟩, .default⟩
          ⟨.ofArena 16 1, #[]⟩ =
        .ok (.success tokens) after ∧
      ∃ stops,
        Tiling .default (Utf8.encode "ab // c\n\"d") 0 (after.tokenContents tokens) stops := by
  have fits : Memory.Fits (.ofArena 16 1) ⟨0⟩ := Memory.fits_ofArena (by decide) .unlimited
  have checked : (match WorkspaceM.tokenize ⟨Utf8.encode "ab // c\n\"d", ⟨0⟩, .default⟩
      ⟨.ofArena 16 1, #[]⟩ with
    | .ok (.success tokens) _ => tokens.length == 2
    | _ => false) = true := by decide +kernel
  split at checked
  · rename_i tokens after succeeded
    exact ⟨tokens, after, fits, succeeded, tiling_of_tokenize_success fits succeeded⟩
  · cases checked

/-- The bytes in front of a failure are scanned to the end, and their payloads come first among those
of the whole source. -/
private theorem run_take_of_failed {rules : ScanRules} {source : Bytes} {offset : Nat}
    {problem : ScanProblem} (failed : (Scan.run rules source).ending = .failed offset problem) :
    (Scan.run rules (source.take offset)).ending = .complete ∧
      payloadLengths (Scan.run rules (source.take offset)).tokens <+:
        payloadLengths (Scan.run rules source).tokens := by
  have derived := Scan.yields_runFrom rules (Place.start source)
  obtain ⟨kept, extra, ⟨others, initial⟩, payloadless, truncated⟩ := derived.truncated failed
  have ran : Scan.run rules (source.take offset) = _ := truncated.runFrom_eq
  have whole : (Scan.run rules source).tokens = kept ++ others := initial.symm
  rw [ran, whole, payloadLengths_append, payloadLengths_append,
    payloadLengths_payloadless payloadless, List.append_nil]
  exact ⟨rfl, List.prefix_append _ _⟩

/-- A tokenization that fails names an offset of the source and a message to which exactly one of
the three kinds of failures fits. What stands in front of the offset can be tokenized, on the same
heap as it was before and on any heap that does not run out. -/
theorem tells_of_tokenize_failure {lexer : Lexer} {before after : Workspace} {failure : Failure}
    (heap : before.memory.allocator lexer.allocator = .heap)
    (failed : WorkspaceM.tokenize lexer before = .ok (.failure failure) after) :
    ∃ offset : Nat, failure.offset = offset ∧ offset < lexer.source.length ∧
      (∃! kind, FailureKind.Tells lexer.rules lexer.source offset failure.message kind) ∧
      failure.message ≠ "malformed numeric literal" ∧
      (∃ tokens later,
        WorkspaceM.tokenize { lexer with source := lexer.source.take offset } before =
          .ok (.success tokens) later) ∧
      ∀ other : Workspace, other.memory.allocator lexer.allocator = .heap →
        other.memory.machine = .unlimited →
        ∃ tokens later,
          WorkspaceM.tokenize { lexer with source := lexer.source.take offset } other =
            .ok (.success tokens) later := by
  have fits := Memory.fits_of_heap heap
  obtain ⟨offset, problem, ended, rfl⟩ := ending_of_tokenize_failure fits failed
  obtain ⟨inside, kind, tells, only⟩ := FailureKind.tells_of_run ended
  obtain ⟨completed, initial⟩ := run_take_of_failed ended
  refine ⟨offset, rfl, inside, ⟨kind, tells, only⟩, FailureKind.message_ne tells, ?_, ?_⟩
  · obtain ⟨others, parts⟩ := initial
    have affords := affords_of_tokenize fits failed
    rw [← parts] at affords
    exact tokenize_success_of_affords fits affords.left completed
  · intro other otherHeap unlimited
    have countable := countable_of_tokenize heap failed
    exact tokenize_success_of_affords (Memory.fits_of_heap otherHeap)
      (Memory.affords_of_unlimited otherHeap unlimited fun size member =>
        countable size (initial.subset member)) completed

/-- The second point of a number fails at its offset. -/
theorem tells_of_tokenize_failure_second_point :
    ∃ failure after,
      Memory.allocator .ofHeap ⟨0⟩ = .heap ∧
      WorkspaceM.tokenize ⟨Utf8.encode "a 1.2.3", ⟨0⟩, .default⟩ ⟨.ofHeap, #[]⟩ =
        .ok (.failure failure) after ∧
      ∃ offset : Nat, failure.offset = offset ∧ offset < (Utf8.encode "a 1.2.3").length ∧
        (∃! kind, FailureKind.Tells .default (Utf8.encode "a 1.2.3") offset failure.message kind) ∧
        failure.message ≠ "malformed numeric literal" ∧
        (∃ tokens later,
          WorkspaceM.tokenize ⟨(Utf8.encode "a 1.2.3").take offset, ⟨0⟩, .default⟩
            ⟨.ofHeap, #[]⟩ = .ok (.success tokens) later) ∧
        ∀ other : Workspace, other.memory.allocator ⟨0⟩ = .heap →
          other.memory.machine = .unlimited →
          ∃ tokens later,
            WorkspaceM.tokenize ⟨(Utf8.encode "a 1.2.3").take offset, ⟨0⟩, .default⟩ other =
              .ok (.success tokens) later := by
  have checked : (match WorkspaceM.tokenize ⟨Utf8.encode "a 1.2.3", ⟨0⟩, .default⟩
      ⟨.ofHeap, #[]⟩ with
    | .ok (.failure failure) _ => failure.offset == 5
    | _ => false) = true := by decide +kernel
  split at checked
  · rename_i failure after failed
    exact ⟨failure, after, rfl, failed, tells_of_tokenize_failure rfl failed⟩
  · cases checked

/-- A tokenization that has room for the payloads returns what the loops of the scan find, whatever
the marker and the symbols. They take at most one step for each byte of the source, and
the cursor never moves back and never leaves the source. -/
theorem tokenize_returns {lexer : Lexer} {before : Workspace}
    (fits : before.memory.Fits lexer.allocator)
    (enough : before.memory.Affords lexer.allocator
      (payloadLengths (Scan.run lexer.rules lexer.source).tokens)) :
    (∃ outcome after stops tokens ending,
      WorkspaceM.tokenize lexer before = .ok outcome after ∧
      Scan.Loops lexer.rules (Cursor.ofBytes lexer.source) stops tokens ending ∧
      after.outcomeContents outcome = scanOutcome ⟨tokens, ending⟩) ∧
    (∀ stops tokens ending,
      Scan.Loops lexer.rules (Cursor.ofBytes lexer.source) stops tokens ending →
        stops.length ≤ lexer.source.length ∧
        (Cursor.ofBytes lexer.source :: stops).Pairwise Cursor.Onward ∧
        Scan.run lexer.rules lexer.source = ⟨tokens, ending⟩) ∧
    Scan.Advances lexer.rules := by
  obtain ⟨outcome, after, ran, -⟩ := tokenize_of_affords enough
  obtain ⟨stops, tokens, ending, loops⟩ := Scan.exists_loops_ofBytes lexer.rules lexer.source
  obtain ⟨-, -, scanned⟩ := Scan.run_of_loops loops
  refine ⟨⟨outcome, after, stops, tokens, ending, ran, loops, ?_⟩, ?_, Scan.advances lexer.rules⟩
  · rw [outcomeContents_of_tokenize fits ran, scanned]
  · intro stops tokens ending loops
    exact Scan.run_of_loops loops

/-- Here a space begins a comment, which takes the rest of its line. -/
theorem tokenize_returns_spaced :
    ∃ outcome after stops,
      Memory.allocator .ofHeap ⟨0⟩ = .heap ∧
      WorkspaceM.tokenize ⟨Utf8.encode "a b\n$", ⟨0⟩, " ", false, .default, by decide⟩
          ⟨.ofHeap, #[]⟩ = .ok outcome after ∧
      List.length stops ≤ 5 ∧
      (Cursor.ofBytes (Utf8.encode "a b\n$") :: stops).Pairwise Cursor.Onward ∧
      after.outcomeContents outcome = .failure ⟨4, "unexpected character '$'"⟩ := by
  have enough : Memory.Affords .ofHeap ⟨0⟩ (payloadLengths
      (Scan.run ⟨" ", false, .default, by decide⟩ (Utf8.encode "a b\n$")).tokens) := by
    decide +kernel
  have stray : (Scan.run ⟨" ", false, .default, by decide⟩ (Utf8.encode "a b\n$")).ending =
      .failed 4 (.unexpected 0x24) := by
    decide +kernel
  obtain ⟨⟨outcome, after, stops, tokens, ending, ran, loops, said⟩, bounded, -⟩ :=
    @tokenize_returns ⟨Utf8.encode "a b\n$", ⟨0⟩, " ", false, .default, by decide⟩
      ⟨.ofHeap, #[]⟩ (Memory.fits_of_heap rfl) enough
  obtain ⟨le, onward, found⟩ := bounded _ _ _ loops
  refine ⟨outcome, after, stops, rfl, ran, le, onward, ?_⟩
  have ended := congrArg Scan.ending found
  dsimp only at ended
  rw [stray] at ended
  rw [said, ← ended]
  rfl

end LexKit.Workspace
