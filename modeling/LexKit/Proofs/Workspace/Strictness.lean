import LexKit.Proofs.Scan.Line
import LexKit.Proofs.Scan.Truncation
import LexKit.Proofs.Workspace.Threshold

/-!
# Strict and lenient strings

Strict and lenient scans take the same tokens until the lenient one takes a string without a closing
quote. Nothing is left behind such a string: it is the last token of the lenient scan, and the
strict one fails where it begins.
-/

set_option autoImplicit false

namespace LexKit

/-- The same rules, except that a string may run to the end of the source. -/
def ScanRules.lenient (rules : ScanRules) : ScanRules :=
  { rules with strictStrings := false }

/-- What a strict scan of `source` says where a lenient one gives this outcome. -/
def Outcome.strictly (source : Bytes) : Outcome Bytes → Outcome Bytes
  | .failure reported => .failure reported
  | .success tokens =>
      match tokens.getLast? with
      | some ⟨.string _, offset⟩ =>
          if Byte.quote ∈ source.drop (offset + 1) then .success tokens
          else .failure ⟨offset, "unterminated string literal"⟩
      | _ => .success tokens

/-! ## Scans -/

namespace Scan

variable {rules : ScanRules} {source : Bytes}

/-- The last token is a string without a quote behind its first one. -/
def OpenLast (source : Bytes) (tokens : List (Token Bytes)) : Prop :=
  ∃ text offset, tokens.getLast? = some ⟨.string text, offset⟩ ∧
    Byte.quote ∉ source.drop (offset + 1)

/-- How a strict scan relates to the lenient scan of the same source. -/
inductive Parts (rules : ScanRules) (source : Bytes) (place : Place) (tokens : List (Token Bytes))
    (ending : ScanEnding) : Prop where
  | together (closed : ¬OpenLast source tokens)
      (derived : Yields rules.strict place tokens ending)
  | apart {front : List (Token Bytes)} {text : Bytes} {offset : Nat}
      (tokens_eq : tokens = front ++ [⟨.string text, offset⟩]) (completed : ending = .complete)
      (unquoted : Byte.quote ∉ source.drop (offset + 1))
      (derived : Yields rules.strict place front (.failed offset .unterminatedString))

/-- A string that was taken strictly has a quote behind its first one. -/
private theorem quoted_of_strict {here next : Place} {byte : UInt8} {rest text : Bytes}
    {offset : Nat} (within : here.Within source) (reads : here.rest = byte :: rest)
    (taken : step rules.strict here byte rest = .token ⟨.string text, offset⟩ next) :
    Byte.quote ∈ source.drop (offset + 1) := by
  obtain ⟨spelling, -, moved, rfl, spelled⟩ := step_spells reads taken
  have tail := congrArg List.tail (within.rest_eq.symm.trans moved.rest_eq)
  rw [List.tail_drop] at tail
  rw [tail]
  generalize next.rest = after at spelled
  cases spelled with
  | string => simp
  | openString lenient => cases lenient

private theorem string_unquoted {content : Bytes} (offset : Nat) (unquoted : Byte.quote ∉ content) :
    string true offset content = .failed offset .unterminatedString := by
  have ended : content.dropWhile (· != Byte.quote) = [] := by
    rw [List.dropWhile_eq_nil_iff]
    intro byte member
    exact bne_iff_ne.mpr fun same => unquoted (same ▸ member)
  rw [string, ended]
  rfl

private theorem openLast_cons {token : Token Bytes} {tokens : List (Token Bytes)}
    (left : OpenLast source (token :: tokens)) : OpenLast source tokens ∨ tokens = [] := by
  cases tokens with
  | nil => exact .inr rfl
  | cons second rest =>
      obtain ⟨text, offset, last, unquoted⟩ := left
      rw [List.getLast?_cons_cons] at last
      exact .inl ⟨text, offset, last, unquoted⟩

private theorem Parts.token {place next : Place} {byte : UInt8} {rest : Bytes}
    {token : Token Bytes} {tokens : List (Token Bytes)} {ending : ScanEnding}
    (within : place.Within source) (reads : (skipTrivia rules.strict place).rest = byte :: rest)
    (taken : step rules.strict (skipTrivia rules.strict place) byte rest = .token token next)
    (later : Parts rules source next tokens ending) :
    Parts rules source place (token :: tokens) ending := by
  obtain ⟨gap, moved, -⟩ := over_skipTrivia rules.strict place
  cases later with
  | together closed derived =>
      refine .together ?_ (.token reads taken derived)
      intro left
      rcases openLast_cons left with left | rfl
      · exact closed left
      · obtain ⟨text, offset, last, unquoted⟩ := left
        cases last
        exact unquoted (quoted_of_strict (within.over moved) reads taken)
  | apart tokens_eq completed unquoted derived =>
      subst tokens_eq
      exact .apart (List.cons_append ..).symm completed unquoted (.token reads taken derived)

/-- The two scans go in step. Only an open string parts them, and it ends the lenient one. -/
theorem parts_of_yields {place : Place} {tokens : List (Token Bytes)} {ending : ScanEnding}
    (within : place.Within source) (derived : Yields rules.lenient place tokens ending) :
    Parts rules source place tokens ending := by
  have alike (place : Place) : skipTrivia rules.lenient place = skipTrivia rules.strict place :=
    (@skipTrivia_strict rules.lenient place).symm
  induction derived with
  | complete ended =>
      rw [alike] at ended
      refine .together ?_ (.complete ended)
      rintro ⟨text, offset, last, -⟩
      cases last
  | @failed place byte rest offset problem reads broken =>
      rw [alike] at reads broken
      refine .together ?_ (.failed reads ?_)
      · rintro ⟨text, offset, last, -⟩
        cases last
      · rcases step_strict rules.lenient (skipTrivia rules.strict place) byte rest with
          same | ⟨-, lenient⟩
        · exact same.trans broken
        · -- A lenient string never fails.
          rw [lenient] at broken
          unfold string at broken
          split at broken <;> cases broken
  | @token place next byte rest token tokens ending reads taken behind ih =>
      rw [alike] at reads taken
      obtain ⟨gap, moved, -⟩ := over_skipTrivia rules.strict place
      have inside := within.over moved
      obtain ⟨spelling, -, movedOn, -⟩ := @step_spells rules.lenient _ _ _ _ _ reads taken
      rcases step_strict rules.lenient (skipTrivia rules.strict place) byte rest with
        same | ⟨strict, lenient⟩
      · exact .token within reads (same.trans taken) (ih (inside.over movedOn))
      · rcases string_eq_token (lenient.symm.trans taken) with
          ⟨-, unquoted, rfl, rfl⟩ | ⟨text, after, unquoted, rfl, rfl, rfl⟩
        · obtain ⟨rfl, rfl⟩ := behind.eq_of_ended rfl
          have tail := congrArg List.tail (inside.rest_eq.symm.trans reads)
          rw [List.tail_drop, List.tail_cons] at tail
          refine .apart (List.nil_append _).symm rfl ?_
            (.failed reads (strict.trans (string_unquoted _ unquoted)))
          rwa [tail]
        · exact .token within reads (strict.trans (string_closed unquoted))
            (ih (inside.over movedOn))

theorem parts_of_run (rules : ScanRules) (source : Bytes) :
    Parts rules source (Place.start source) (run rules.lenient source).tokens
      (run rules.lenient source).ending :=
  parts_of_yields (.start source) (yields_runFrom rules.lenient (Place.start source))

end Scan

/-! ## Tokenizations -/

namespace Workspace

private theorem strictly_of_closed {source : Bytes} {tokens : List (Token Bytes)}
    (closed : ¬Scan.OpenLast source tokens) :
    Outcome.strictly source (.success tokens) = .success tokens := by
  unfold Outcome.strictly
  dsimp only
  split
  · rename_i text offset last
    split
    · rfl
    · rename_i unquoted
      exact absurd ⟨text, offset, last, unquoted⟩ closed
  · rfl

private theorem strictly_of_open {source text : Bytes} {offset : Nat} (front : List (Token Bytes))
    (unquoted : Byte.quote ∉ source.drop (offset + 1)) :
    Outcome.strictly source (.success (front ++ [⟨.string text, offset⟩])) =
      .failure ⟨offset, "unterminated string literal"⟩ := by
  unfold Outcome.strictly
  dsimp only
  rw [List.getLast?_concat]
  exact if_neg unquoted

/-- The strict outcome follows from the lenient one alone, and differs from it only where the last
string has no end. -/
theorem scanOutcome_strict (rules : ScanRules) (source : Bytes) :
    scanOutcome (Scan.run rules.strict source) =
      (scanOutcome (Scan.run rules.lenient source)).strictly source := by
  have parts := Scan.parts_of_run rules source
  cases lenient : Scan.run rules.lenient source with
  | mk tokens ending =>
      rw [lenient] at parts
      cases parts with
      | together closed derived =>
          rw [Scan.run, derived.runFrom_eq]
          cases ending with
          | complete => exact (strictly_of_closed closed).symm
          | failed offset problem => rfl
      | @apart front text offset tokens_eq completed unquoted derived =>
          dsimp only at tokens_eq completed
          rw [Scan.run, derived.runFrom_eq, tokens_eq, completed]
          exact (strictly_of_open front unquoted).symm

/-- Payloads that were stored up to some token were stored up to each token before it. -/
private theorem intern_front {State Handle : Type} (store : PayloadStore State Handle)
    {front behind : List (Token Bytes)} {done stored : List (Token Handle)} {state after : State}
    (interned : store.intern done (front ++ behind) state = (stored, none, after)) :
    ∃ earlier between, store.intern done front state = (earlier, none, between) := by
  induction front generalizing done state with
  | nil => exact ⟨_, _, rfl⟩
  | cons token front ih =>
      rw [List.cons_append] at interned
      unfold PayloadStore.intern at interned ⊢
      cases held : store.internLexeme token.lexeme state with
      | mk result between =>
          rw [held] at interned
          cases result with
          | ok lexeme => exact ih interned
          | error fault => cases interned

private theorem interned_of_tokenize {lexer : Lexer} {before after : Workspace}
    {outcome : Outcome BufferId} (ran : WorkspaceM.tokenize lexer before = .ok outcome after) :
    ∃ stored filled, (payloadStore lexer.allocator).intern []
      (Scan.run lexer.rules lexer.source).tokens before = (stored, none, filled) := by
  unfold WorkspaceM.tokenize PayloadStore.tokenize at ran
  dsimp only at ran
  split at ran
  · rename_i result later tokenized
    split at tokenized
    · cases tokenized
    · rename_i stored filled interned
      exact ⟨stored, filled, interned⟩
  · cases ran

private theorem tokenize_of_interned {lexer : Lexer} {before filled : Workspace}
    {tokens : List (Token Bytes)} {ending : ScanEnding} {stored : List (Token BufferId)}
    (ran : Scan.run lexer.rules lexer.source = ⟨tokens, ending⟩)
    (interned : (payloadStore lexer.allocator).intern [] tokens before = (stored, none, filled)) :
    ∃ outcome after, WorkspaceM.tokenize lexer before = .ok outcome after := by
  simp only [WorkspaceM.tokenize, PayloadStore.tokenize, ran, interned]
  cases ending with
  | complete => exact ⟨_, _, rfl⟩
  | failed offset problem => exact ⟨_, _, rfl⟩

/-- A strict scan needs no more room than a lenient one. -/
private theorem tokenize_strict_returns {rules : ScanRules} {source : Bytes} {id : AllocatorId}
    {before after : Workspace} {outcome : Outcome BufferId}
    (ran : WorkspaceM.tokenize ⟨source, id, rules.lenient⟩ before = .ok outcome after) :
    ∃ result later, WorkspaceM.tokenize ⟨source, id, rules.strict⟩ before = .ok result later := by
  obtain ⟨stored, filled, interned⟩ := interned_of_tokenize ran
  dsimp only at interned
  cases Scan.parts_of_run rules source with
  | together _ derived => exact tokenize_of_interned derived.runFrom_eq interned
  | apart tokens_eq _ _ derived =>
      rw [tokens_eq] at interned
      obtain ⟨earlier, between, fewer⟩ := intern_front _ interned
      exact tokenize_of_interned derived.runFrom_eq fewer

/-- Let a lenient scan give an outcome. Where its last token is a string and no quote stands behind
the one that opens it, every strict scan of the same source fails at that string. In every other
case it gives the same outcome. It returns wherever the lenient one does, and on any heap that does
not run out if the lenient one was on a heap. -/
theorem strictly_of_tokenize_lenient {rules : ScanRules} {source : Bytes} {id : AllocatorId}
    {before after : Workspace} {outcome : Outcome BufferId} (fits : before.memory.Fits id)
    (ran : WorkspaceM.tokenize ⟨source, id, rules.lenient⟩ before = .ok outcome after) :
    (∀ other workspace result later, workspace.memory.Fits other →
      WorkspaceM.tokenize ⟨source, other, rules.strict⟩ workspace = .ok result later →
        later.outcomeContents result = (after.outcomeContents outcome).strictly source) ∧
    (∃ result later,
      WorkspaceM.tokenize ⟨source, id, rules.strict⟩ before = .ok result later) ∧
    (before.memory.allocator id = .heap →
      ∀ other workspace, workspace.memory.allocator other = .heap →
        workspace.memory.machine = .unlimited →
        ∃ result later,
          WorkspaceM.tokenize ⟨source, other, rules.strict⟩ workspace = .ok result later) := by
  refine ⟨?_, tokenize_strict_returns ran, ?_⟩
  · intro other workspace result later room strict
    rw [outcomeContents_of_tokenize room strict, outcomeContents_of_tokenize fits ran]
    exact scanOutcome_strict rules source
  · intro heap other workspace isHeap unlimited
    obtain ⟨result, later, strict⟩ := tokenize_strict_returns ran
    have countable := @countable_of_tokenize _ ⟨source, id, rules.strict⟩ _ _ heap strict
    exact @tokenize_of_unlimited workspace ⟨source, other, rules.strict⟩ isHeap unlimited countable

/-- A comment stands behind the quote that opens the last string, and belongs to the string. -/
theorem strictly_of_tokenize_lenient_open_string :
    ∃ outcome after result later,
      WorkspaceM.tokenize ⟨Utf8.encode "a \"b // c", ⟨0⟩, ScanRules.default.lenient⟩
          ⟨.ofHeap, #[]⟩ = .ok outcome after ∧
      WorkspaceM.tokenize ⟨Utf8.encode "a \"b // c", ⟨0⟩, ScanRules.default.strict⟩
          ⟨.ofHeap, #[]⟩ = .ok result later ∧
      later.outcomeContents result = .failure ⟨2, "unterminated string literal"⟩ := by
  have checked : (match WorkspaceM.tokenize
        ⟨Utf8.encode "a \"b // c", ⟨0⟩, ScanRules.default.lenient⟩ ⟨.ofHeap, #[]⟩ with
      | .ok outcome after =>
          match (after.outcomeContents outcome).strictly (Utf8.encode "a \"b // c") with
          | .failure reported => reported == ⟨2, "unterminated string literal"⟩
          | .success _ => false
      | .error _ _ => false) = true := by decide +kernel
  have fits : Memory.Fits .ofHeap ⟨0⟩ := Memory.fits_of_heap rfl
  split at checked
  · rename_i outcome after ran
    split at checked
    · rename_i reported strictly
      obtain ⟨said, ⟨result, later, strict⟩, -⟩ := strictly_of_tokenize_lenient fits ran
      refine ⟨outcome, after, result, later, ran, strict, ?_⟩
      rw [said _ _ _ _ fits strict, strictly, eq_of_beq checked]
    · cases checked
  · cases checked

end Workspace

end LexKit
