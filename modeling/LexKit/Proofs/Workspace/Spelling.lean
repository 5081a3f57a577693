import LexKit.Proofs.Scan.Boundary
import LexKit.Proofs.Scan.Word
import LexKit.Proofs.Workspace.Threshold

/-!
# The spelling of tokens

Which bytes of the source a token takes and what it makes of them. Where it starts at a letter, it
takes a whole word, which is a symbol if the table has it and an identifier otherwise. If the
source, the marker and the literals of the table are encoded text, tokens and failures are made of
whole characters.
-/

set_option autoImplicit false

namespace LexKit.Workspace

/-- If all that begins with a letter in the table are words, which holds of the default table and of
tables of words and other signs, then a token that starts at a letter takes a whole word and is what
the table says of it, and no identifier is spelled like a symbol. -/
theorem words_of_tokenize_success :
    SymbolTable.default.KeepsWords ∧
    (∀ pairs table, SymbolTable.ofPairs pairs = .ok table →
      (∀ pair ∈ pairs, (Utf8.encode pair.1).head?.any Byte.isLetter = true →
        ∀ byte ∈ Utf8.encode pair.1, Byte.isIdentifierPart byte = true) → table.KeepsWords) ∧
    ∀ (lexer : Lexer) (before after : Workspace) (tokens : List (Token BufferId)),
      lexer.rules.symbols.KeepsWords → before.memory.Fits lexer.allocator →
      WorkspaceM.tokenize lexer before = .ok (.success tokens) after →
        let found := after.tokenContents tokens
        let stops := Scan.stopsFrom lexer.rules (Place.start lexer.source)
        Tiling lexer.rules lexer.source 0 found stops ∧
          List.Forall₂ (Scan.ReadsWord lexer.rules lexer.source) found stops ∧
          ∀ token ∈ found, ∀ name, token.lexeme = .identifier name →
            ∀ entry ∈ lexer.rules.symbols.entries, entry.literal ≠ name := by
  refine ⟨by decide +kernel, fun pairs table => SymbolTable.keepsWords_of_ofPairs, ?_⟩
  intro lexer before after tokens keeps fits succeeded
  obtain ⟨completed, contents⟩ := run_of_tokenize_success fits succeeded
  have derived := Scan.yields_runFrom lexer.rules (Place.start lexer.source)
  have within := Place.Within.start lexer.source
  rw [contents]
  exact ⟨Scan.tiling_of_yields derived completed within,
    Scan.readsWords_of_yields keeps derived completed within⟩

def nestedKeywords : SymbolTable where
  entries := [.ofText "iff" .keywordWhile, .ofText "if" .keywordIf, .ofText "<" .less]
  nonempty := by decide
  symbolic := by decide
  distinct := by decide
  descending := by decide

/-- The keywords stand at the beginning of names, in front of a sign, behind a number and at the
end. -/
theorem words_of_tokenize_success_nested :
    let rules : ScanRules := ⟨"//", false, nestedKeywords, by decide⟩
    let source := Utf8.encode "ifx iff<3if iffy if"
    ∃ tokens after, nestedKeywords.KeepsWords ∧ Memory.Fits .ofHeap ⟨0⟩ ∧
      WorkspaceM.tokenize ⟨source, ⟨0⟩, rules⟩ ⟨.ofHeap, #[]⟩ =
        .ok (.success tokens) after ∧
      (after.tokenContents tokens).map Token.offset = [0, 4, 7, 8, 9, 12, 17] ∧
      List.Forall₂ (Scan.ReadsWord rules source) (after.tokenContents tokens)
        [3, 7, 8, 9, 11, 16, 19] ∧
      ∀ token ∈ after.tokenContents tokens, ∀ name, token.lexeme = .identifier name →
        ∀ entry ∈ nestedKeywords.entries, entry.literal ≠ name := by
  intro rules source
  have keeps : nestedKeywords.KeepsWords := by decide +kernel
  have fits : Memory.Fits .ofHeap ⟨0⟩ := Memory.fits_of_heap rfl
  have checked : (match WorkspaceM.tokenize ⟨source, ⟨0⟩, rules⟩ ⟨.ofHeap, #[]⟩ with
    | .ok (.success tokens) after =>
        (after.tokenContents tokens).map Token.offset == [0, 4, 7, 8, 9, 12, 17]
    | _ => false) = true := by decide +kernel
  have stops : Scan.stopsFrom rules (Place.start source) = [3, 7, 8, 9, 11, 16, 19] := by
    decide +kernel
  split at checked
  · rename_i tokens after succeeded
    obtain ⟨-, -, words⟩ := words_of_tokenize_success
    obtain ⟨-, read, named⟩ := words _ _ _ _ keeps fits succeeded
    dsimp only at read
    rw [stops] at read
    exact ⟨tokens, after, keeps, fits, succeeded, eq_of_beq checked, read, named⟩
  · cases checked

/-- In encoded text, tokens begin and end between characters and carry text, and a failure names the
offset of the character that it is about. -/
theorem boundaries_of_tokenize {pairs : List (String × TokenKind)} {text : String} {lexer : Lexer}
    {before : Workspace} (made : SymbolTable.ofPairs pairs = .ok lexer.rules.symbols)
    (encoded : lexer.source = Utf8.encode text) (fits : before.memory.Fits lexer.allocator) :
    (∀ tokens after, WorkspaceM.tokenize lexer before = .ok (.success tokens) after →
      let found := after.tokenContents tokens
      let stops := Scan.stopsFrom lexer.rules (Place.start lexer.source)
      Tiling lexer.rules lexer.source 0 found stops ∧
        (∀ token ∈ found, Scan.Respects text token) ∧ ∀ stop ∈ stops, Utf8.Boundary text stop) ∧
    ∀ failure after, WorkspaceM.tokenize lexer before = .ok (.failure failure) after →
      ∃ (problem : ScanProblem) (front : String) (char : Char) (back : String),
        failure = ⟨(Utf8.encode front).length, problem.message⟩ ∧
        text = front ++ String.singleton char ++ back ∧ problem.About char := by
  have symbols := SymbolTable.isText_of_ofPairs made
  have derived := Scan.yields_runFrom lexer.rules (Place.start lexer.source)
  have between := Place.Between.start text
  rw [← encoded] at between
  constructor
  · intro tokens after succeeded
    obtain ⟨completed, contents⟩ := run_of_tokenize_success fits succeeded
    rw [contents]
    exact ⟨Scan.tiling_of_yields derived completed (Place.Within.start lexer.source),
      Scan.respects_of_yields symbols derived between⟩
  · intro failure after failed
    obtain ⟨offset, problem, ended, rfl⟩ := ending_of_tokenize_failure fits failed
    obtain ⟨front, char, back, split, rfl, about⟩ :=
      Scan.breaks_of_yields symbols derived ended between
    exact ⟨problem, front, char, back, rfl, split, about⟩

def arrows : SymbolTable where
  entries := [.ofText "→→" .plus, .ofText "→" .assign]
  nonempty := by decide
  symbolic := by decide
  distinct := by decide
  descending := by decide

/-- The marker, the symbols, a string and a comment all have characters of several bytes. A letter
with an accent begins no token. -/
theorem boundaries_of_tokenize_arrows :
    let rules : ScanRules := ⟨"§", false, arrows, by decide⟩
    let text := "a→→\"é→\"§ è\n→"
    let broken := "→ §→\nñ"
    ∃ tokens after last, SymbolTable.ofPairs [("→→", .plus), ("→", .assign)] = .ok arrows ∧
      Memory.Fits .ofHeap ⟨0⟩ ∧
      WorkspaceM.tokenize ⟨Utf8.encode text, ⟨0⟩, rules⟩ ⟨.ofHeap, #[]⟩ =
        .ok (.success tokens) after ∧
      (after.tokenContents tokens).map Token.offset = [0, 1, 7, 20] ∧
      (∀ token ∈ after.tokenContents tokens, Scan.Respects text token) ∧
      (∀ stop ∈ [1, 7, 14, 23], Utf8.Boundary text stop) ∧
      WorkspaceM.tokenize ⟨Utf8.encode broken, ⟨0⟩, rules⟩ ⟨.ofHeap, #[]⟩ =
        .ok (.failure ⟨10, (ScanProblem.unexpected 0xC3).message⟩) last ∧
      Utf8.Boundary broken 10 := by
  intro rules text broken
  have made : SymbolTable.ofPairs [("→→", .plus), ("→", .assign)] = .ok arrows :=
    SymbolTable.ofEntries_entries arrows
  have fits : Memory.Fits .ofHeap ⟨0⟩ := Memory.fits_of_heap rfl
  have checked : (match WorkspaceM.tokenize ⟨Utf8.encode text, ⟨0⟩, rules⟩
        ⟨.ofHeap, #[]⟩ with
    | .ok (.success tokens) after =>
        (after.tokenContents tokens).map Token.offset == [0, 1, 7, 20]
    | _ => false) = true := by decide +kernel
  have refused : (match WorkspaceM.tokenize ⟨Utf8.encode broken, ⟨0⟩, rules⟩
        ⟨.ofHeap, #[]⟩ with
    | .ok (.failure failure) _ =>
        failure == ⟨10, (ScanProblem.unexpected 0xC3).message⟩
    | _ => false) = true := by decide +kernel
  have stops : Scan.stopsFrom rules (Place.start (Utf8.encode text)) = [1, 7, 14, 23] := by
    decide +kernel
  obtain ⟨covers, -⟩ := @boundaries_of_tokenize _ text ⟨Utf8.encode text, ⟨0⟩, rules⟩
    ⟨.ofHeap, #[]⟩ made rfl fits
  obtain ⟨-, names⟩ := @boundaries_of_tokenize _ broken ⟨Utf8.encode broken, ⟨0⟩, rules⟩
    ⟨.ofHeap, #[]⟩ made rfl fits
  split at checked
  · rename_i tokens after succeeded
    split at refused
    · rename_i failure last failed
      obtain ⟨-, respects, ends⟩ := covers _ _ succeeded
      obtain ⟨problem, front, char, back, named, split, -⟩ := names _ _ failed
      rw [eq_of_beq refused] at failed named
      have offset : (10 : Int) = (Utf8.encode front).length := congrArg Failure.offset named
      refine ⟨tokens, after, last, made, fits, succeeded, eq_of_beq checked, respects, ?_, failed,
        front, String.singleton char ++ back, ?_, by omega⟩
      · rwa [stops] at ends
      · rw [split, String.append_assoc]
    · cases refused
  · cases checked

end LexKit.Workspace
