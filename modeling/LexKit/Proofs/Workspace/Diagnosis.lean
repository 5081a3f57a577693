import LexKit.Diagnostic
import LexKit.Proofs.Scan.Boundary
import LexKit.Proofs.Source.Line
import LexKit.Proofs.Workspace.Threshold

/-!
# Diagnostics and the failures they show

A document has a diagnostic if and only if its scan fails, and the diagnostic marks the character
that the failure names. The place of the character is found from bytes. It is the place in the text
because a scan of text fails between characters, and because a line feed is a character of its own.
-/

set_option autoImplicit false

namespace LexKit

/-! ## Places in a text -/

/-- The place behind a text: the number of line feeds in it, and of the characters behind the last
one. -/
structure TextPlace.Behind (front : String) (place : TextPlace) : Prop where
  line_eq : place.line = front.toList.count '\n'
  character_eq : ∃ lines tail, front = lines ++ tail ∧
    (lines = "" ∨ ∃ earlier, lines = earlier ++ "\n") ∧ '\n' ∉ tail.toList ∧
    place.character = tail.toList.length

namespace TextPlace

theorem count_lineFeed (text : String) :
    (Utf8.encode text).count Byte.lineFeed = text.toList.count '\n' :=
  Utf8.count_encode (by decide) text

/-- The last line of an encoded text encodes the last line of the text. -/
theorem lineTail_encode (front : String) :
    ∃ lines tail, front = lines ++ tail ∧ (lines = "" ∨ ∃ earlier, lines = earlier ++ "\n") ∧
      '\n' ∉ tail.toList ∧ Position.lineTail (Utf8.encode front) = Utf8.encode tail := by
  have unfed := Position.not_mem_lineTail (Utf8.encode front)
  have parts := Position.lineHead_append_lineTail (Utf8.encode front)
  have unfed_of {tail : String} (encoded : Utf8.encode tail = Position.lineTail (Utf8.encode front)) :
      '\n' ∉ tail.toList := by
    rw [← encoded, ← List.count_eq_zero, count_lineFeed] at unfed
    exact List.count_eq_zero.mp unfed
  rcases Position.lineHead_cases (Utf8.encode front) with empty | ⟨earlier, fed⟩
  · rw [empty, List.nil_append] at parts
    exact ⟨"", front, by simp, .inl rfl, unfed_of parts.symm, parts⟩
  · rw [fed, List.append_assoc, List.singleton_append] at parts
    obtain ⟨⟨lines, rfl⟩, tail, encoded⟩ := Utf8.IsText.split_at (by decide) ⟨front, parts.symm⟩
    refine ⟨lines ++ "\n", tail, ?_, .inr ⟨lines, rfl⟩, unfed_of encoded, encoded.symm⟩
    apply Utf8.encode_injective
    rw [← parts, ← encoded, Utf8.encode_append, Utf8.encode_append, List.append_assoc]
    rfl

theorem behind_ofOffset (front back : String) :
    (ofOffset (Utf8.encode (front ++ back)) (Utf8.encode front).length).Behind front := by
  have before : (Utf8.encode (front ++ back)).take (Utf8.encode front).length =
      Utf8.encode front := by
    rw [Utf8.encode_append, List.take_left]
  obtain ⟨lines, tail, split, fed, unfed, encoded⟩ := lineTail_encode front
  refine ⟨?_, lines, tail, split, fed, unfed, ?_⟩
  · simp only [ofOffset, Int.toNat_natCast, before, count_lineFeed]
  · simp only [ofOffset, Int.toNat_natCast, before, encoded, Utf8.decodeLossy_encode]

end TextPlace

/-! ## Room for payloads -/

theorem Spells.payload_length_le {rules : ScanRules} {lexeme : Lexeme Bytes}
    {text after payload : Bytes} (spelled : Spells rules lexeme text after)
    (carried : lexeme.payload? = some payload) : payload.length ≤ text.length := by
  cases spelled with
  | symbol => cases carried
  | identifier =>
      cases carried
      exact Nat.le_refl _
  | string =>
      cases carried
      simp
      omega
  | openString =>
      cases carried
      simp
  | number => cases carried

/-- A payload is cut from the bytes in front of the scan, so it is not longer than they are. -/
theorem Scan.payload_length_le {rules : ScanRules} {place : Place} {tokens : List (Token Bytes)}
    {ending : ScanEnding} (derived : Yields rules place tokens ending) :
    ∀ token ∈ tokens, ∀ payload, token.payload? = some payload →
      payload.length ≤ place.rest.length := by
  induction derived with
  | complete => simp
  | failed => simp
  | @token place next byte rest token tokens ending reads taken _ ih =>
      obtain ⟨text, -, moved, -, spelled⟩ := step_spells reads taken
      have shorter := skipTrivia_length_le rules place
      have parts := congrArg List.length moved.rest_eq
      rw [List.length_append] at parts
      intro found member payload carried
      rcases List.mem_cons.mp member with rfl | later
      · have own := spelled.payload_length_le carried
        omega
      · have behind := ih found later payload carried
        omega

/-- No payload is longer than its source. -/
theorem Workspace.countable_of_source {lexer : Lexer}
    (countable : (lexer.source.length : Int) ≤ maxSize) :
    ∀ size ∈ payloadLengths (Scan.run lexer.rules lexer.source).tokens, (size : Int) ≤ maxSize := by
  intro size member
  obtain ⟨payload, ⟨token, inside, carried⟩, rfl, -⟩ := mem_payloadLengths.mp member
  have le := Scan.payload_length_le (Scan.yields_runFrom lexer.rules (Place.start lexer.source))
    token inside payload carried
  have within : payload.length ≤ lexer.source.length := le
  omega

/-! ## Diagnostics -/

/-- What a document with this text has to show for the outcome of its tokenization: nothing, or one
diagnostic on the character whose encoding begins at the failure. -/
inductive Diagnosed (text : String) : Outcome BufferId → List Diagnostic → Prop where
  | clean {tokens : List (Token BufferId)} : Diagnosed text (.success tokens) []
  | marked {failure : Failure} {diagnostic : Diagnostic} {front back : String} {char : Char} :
      text = front ++ String.singleton char ++ back →
      failure.offset = (Utf8.encode front).length → diagnostic.start.Behind front →
      diagnostic.stop = ⟨diagnostic.start.line, diagnostic.start.character + 1⟩ →
      diagnostic.message = failure.message →
      Diagnosed text (.failure failure) [diagnostic]

theorem SymbolTable.isText_default : ∀ entry ∈ default.entries, Utf8.IsText entry.literal := by
  have ascii : ∀ entry ∈ default.entries, ∀ byte ∈ entry.literal, byte < 0x80 := by decide +kernel
  exact fun entry member => .of_ascii (ascii entry member)

namespace Workspace

/-- The diagnostics of a text say what any tokenization of it says, since both come from the same
scan. -/
theorem diagnosed_of_tokenize {text : String} {allocator : AllocatorId} {before after : Workspace}
    {outcome : Outcome BufferId} (fits : before.memory.Fits allocator)
    (ran : WorkspaceM.tokenize ⟨Utf8.encode text, allocator, .default⟩ before =
      .ok outcome after) : Diagnosed text outcome (Diagnostic.ofText text) := by
  unfold Diagnostic.ofText
  cases outcome with
  | success tokens =>
      obtain ⟨completed, -⟩ := run_of_tokenize_success fits ran
      dsimp only at completed
      simp only [completed, ScanEnding.failure?]
      exact .clean
  | failure failure =>
      obtain ⟨offset, problem, ended, rfl⟩ := ending_of_tokenize_failure fits ran
      dsimp only at ended
      obtain ⟨front, char, back, split, rfl, -⟩ :=
        Scan.breaks_of_yields SymbolTable.isText_default
          (Scan.yields_runFrom .default (Place.start (Utf8.encode text))) ended
          (Place.Between.start text)
      have behind := TextPlace.behind_ofOffset front (String.singleton char ++ back)
      rw [← String.append_assoc, ← split] at behind
      simp only [ended, ScanEnding.failure?]
      exact .marked split rfl behind rfl rfl

end Workspace

theorem DocumentEvent.publish_eq (documents : Documents) (event : DocumentEvent) :
    event.publish documents = ⟨event.uri, Diagnostic.ofText (documents event.uri)⟩ := by
  cases event <;> rfl

namespace Workspace

/-- Every event publishes diagnostics of its document. Whatever tokenizing the text gives, on a heap
or in an arena, is what the diagnostics show, and a heap that does not run out gives an outcome for
every text that can be counted. -/
theorem diagnosed_of_publish :
    (∀ (documents : Documents) (event : DocumentEvent),
      (event.publish documents).uri = event.uri ∧
        ∀ (allocator : AllocatorId) (before after : Workspace) (outcome : Outcome BufferId),
          before.memory.Fits allocator →
          WorkspaceM.tokenize ⟨Utf8.encode (documents event.uri), allocator, .default⟩ before =
            .ok outcome after →
          Diagnosed (documents event.uri) outcome (event.publish documents).diagnostics) ∧
    ∀ (text : String) (allocator : AllocatorId) (before : Workspace),
      before.memory.allocator allocator = .heap → before.memory.machine = .unlimited →
      ((Utf8.encode text).length : Int) ≤ maxSize →
        ∃ outcome after, WorkspaceM.tokenize ⟨Utf8.encode text, allocator, .default⟩ before =
          .ok outcome after := by
  constructor
  · intro documents event
    rw [DocumentEvent.publish_eq]
    refine ⟨rfl, ?_⟩
    intro allocator before after outcome fits ran
    exact diagnosed_of_tokenize fits ran
  · intro text allocator before heap unlimited countable
    exact tokenize_of_unlimited heap unlimited (countable_of_source countable)

/-- A document is opened with a failure behind two characters of several bytes each, in its second
line, and then changed to one without a failure. -/
theorem diagnosed_of_publish_accented :
    let text := "a = 1;\ns = \"é→\" $"
    let marked : Diagnostic := ⟨⟨1, 9⟩, ⟨1, 10⟩, "unexpected character '$'", .error, "scanlab"⟩
    let before : Workspace := ⟨.ofHeap, #[]⟩
    (DocumentEvent.opened "file").publish (fun _ => text) = ⟨"file", [marked]⟩ ∧
      (DocumentEvent.changed "file").publish (fun _ => "// né") = ⟨"file", []⟩ ∧
      before.memory.Fits ⟨0⟩ ∧ before.memory.allocator ⟨0⟩ = .heap ∧
      (∃ outcome after, WorkspaceM.tokenize ⟨Utf8.encode text, ⟨0⟩, .default⟩ before =
        .ok outcome after ∧ Diagnosed text outcome [marked]) ∧
      ∃ outcome after, WorkspaceM.tokenize ⟨Utf8.encode "// né", ⟨0⟩, .default⟩ before =
        .ok outcome after ∧ Diagnosed "// né" outcome [] := by
  intro text marked before
  have shown : (DocumentEvent.opened "file").publish (fun _ => text) = ⟨"file", [marked]⟩ := by
    decide +kernel
  have cleared : (DocumentEvent.changed "file").publish (fun _ => "// né") = ⟨"file", []⟩ := by
    decide +kernel
  have fits : before.memory.Fits ⟨0⟩ := Memory.fits_of_heap rfl
  obtain ⟨shows, total⟩ := diagnosed_of_publish
  obtain ⟨outcome, after, ran⟩ := total text ⟨0⟩ before rfl rfl (by decide +kernel)
  obtain ⟨final, last, ranAgain⟩ := total "// né" ⟨0⟩ before rfl rfl (by decide +kernel)
  have first := (shows (fun _ => text) (.opened "file")).2 _ _ _ _ fits ran
  have second := (shows (fun _ => "// né") (.changed "file")).2 _ _ _ _ fits ranAgain
  rw [shown] at first
  rw [cleared] at second
  exact ⟨shown, cleared, fits, rfl, ⟨outcome, after, ran, first⟩, final, last, ranAgain, second⟩

end Workspace

end LexKit
