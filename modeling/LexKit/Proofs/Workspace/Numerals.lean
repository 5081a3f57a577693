import LexKit.Proofs.Scan.Truncation
import LexKit.Proofs.Text.Encoding
import LexKit.Proofs.Workspace.Payloads

/-!
# Numerals and the scan of them

Two readers know what a numeral is: the scan, which takes the longest one that begins at a digit,
and the reader of numbers, which is given text. What the first takes the second accepts, and what
the second accepts the first takes as a whole, up to the sign, with which no number of a scan
begins.
-/

set_option autoImplicit false

namespace LexKit

namespace Scan

variable {rules : ScanRules}

/-- A numeral is scanned to one token, if neither a symbol nor a comment begins with a digit. -/
theorem run_of_numeral (spares : rules.SparesDigits) {source : Bytes} {value : Float}
    (digit : source.head?.any Byte.isDigit = true)
    (parsed : Number.parseFloat? (Utf8.decodeAscii source) = some value) :
    run rules source = ⟨[⟨.number value, 0⟩], .complete⟩ := by
  have accepted : (Number.parseFloat? (Utf8.decodeAscii source)).isSome = true := by
    rw [parsed]
    rfl
  have decimal := Number.parseFloat?_decodeAscii_isSome_iff.mp accepted
  have unsigned := unsignedNumeral_of_isDecimal decimal digit
  have here : skipTrivia rules (Place.start source) = Place.start source :=
    spares.skipTrivia_eq digit
  obtain ⟨next, taken, ended⟩ :=
    @number_of_unsigned (Place.start source) source value rfl unsigned parsed
  have unmatched := spares.match?_eq_none digit
  cases source with
  | nil => cases digit
  | cons byte rest =>
      have reads : (skipTrivia rules (Place.start (byte :: rest))).rest = byte :: rest :=
        congrArg Place.rest here
      have stepped := (@step_of_digit rules (Place.start (byte :: rest)) byte rest digit
        unmatched).trans taken
      rw [← here] at stepped
      have derived := yields_last reads stepped ended
      rw [here] at derived
      exact derived.runFrom_eq

end Scan

/-- Decimal text is ASCII text, which bytes encode as it is. -/
theorem Number.decodeAscii_encode_of_isSome {text : String}
    (accepted : (parseFloat? text.toList).isSome = true) :
    Utf8.decodeAscii (Utf8.encode text) = text.toList := by
  obtain ⟨sign, body, split, signed, formed⟩ := parseFloat?_isSome_iff.mp accepted
  refine Utf8.decodeAscii_encode fun char member => ?_
  rw [split] at member
  rcases List.mem_append.mp member with front | behind
  · rcases signed with rfl | rfl
    · cases front
    · cases List.mem_singleton.mp front
      decide
  · rcases formed.letters char behind with digit | rfl
    · simp only [Numeral.isDigit, Bool.and_eq_true, decide_eq_true_eq] at digit
      have upper : char.toNat ≤ 57 := digit.2
      omega
    · decide

/-- Decimal text begins with a digit if its bytes do. -/
theorem Number.head?_encode_of_isSome {text : String}
    (accepted : (parseFloat? text.toList).isSome = true)
    (digit : text.toList.head?.any Numeral.isDigit = true) :
    (Utf8.encode text).head?.any Byte.isDigit = true := by
  rw [← decodeAscii_encode_of_isSome accepted, Numeral.head?_decodeAscii] at digit
  exact digit

namespace Workspace

/-- No token of the scan carries text, so that the workspace does not change. -/
theorem tokenize_of_numeral {lexer : Lexer} {value : Float} (spares : lexer.rules.SparesDigits)
    (digit : lexer.source.head?.any Byte.isDigit = true)
    (parsed : Number.parseFloat? (Utf8.decodeAscii lexer.source) = some value)
    (before : Workspace) :
    WorkspaceM.tokenize lexer before = .ok (.success [⟨.number value, 0⟩]) before := by
  have ran := Scan.run_of_numeral spares digit parsed
  simp only [WorkspaceM.tokenize, PayloadStore.tokenize, PayloadStore.intern,
    PayloadStore.internLexeme, ran, ScanEnding.failure?, List.reverse_cons, List.reverse_nil,
    List.nil_append]

/-- A text is read as a number if and only if it is an optional sign and digits with at most one
point among them. The text of each number of a scan is read as its value, and a text that begins
with a digit and is read as a number is scanned to it alone, with tables and markers that leave
digits to numbers. -/
theorem numerals_of_tokenize :
    (∀ text : String, (Number.parseFloat? text.toList).isSome = true ↔
      IsDecimal '-' '.' Numeral.isDigit text.toList) ∧
    (∀ bytes : Bytes, (Number.parseFloat? (Utf8.decodeAscii bytes)).isSome = true ↔
      IsDecimal 0x2D Byte.point Byte.isDigit bytes) ∧
    (∀ (lexer : Lexer) (before after : Workspace) (tokens : List (Token BufferId)),
      before.memory.Fits lexer.allocator →
      WorkspaceM.tokenize lexer before = .ok (.success tokens) after →
        let found := after.tokenContents tokens
        let stops := Scan.stopsFrom lexer.rules (Place.start lexer.source)
        Tiling lexer.rules lexer.source 0 found stops ∧
          List.Forall₂ (Scan.ReadsNumber lexer.source) found stops) ∧
    ∀ (lexer : Lexer) (before : Workspace) (value : Float), lexer.rules.SparesDigits →
      (lexer.source.head?.any Byte.isDigit = true →
        Number.parseFloat? (Utf8.decodeAscii lexer.source) = some value →
        WorkspaceM.tokenize lexer before = .ok (.success [⟨.number value, 0⟩]) before) ∧
      ∀ text : String, lexer.source = Utf8.encode text →
        text.toList.head?.any Numeral.isDigit = true →
        Number.parseFloat? text.toList = some value →
        WorkspaceM.tokenize lexer before = .ok (.success [⟨.number value, 0⟩]) before := by
  refine ⟨fun text => Number.parseFloat?_isSome_iff,
    fun bytes => Number.parseFloat?_decodeAscii_isSome_iff, ?_, ?_⟩
  · intro lexer before after tokens fits succeeded
    obtain ⟨completed, contents⟩ := run_of_tokenize_success fits succeeded
    have tiled := Scan.tiling_of_yields
      (Scan.yields_runFrom lexer.rules (Place.start lexer.source)) completed
      (Place.Within.start lexer.source)
    rw [contents]
    exact ⟨tiled, Scan.readsNumbers_of_tiling tiled⟩
  · intro lexer before value spares
    refine ⟨fun digit parsed => tokenize_of_numeral spares digit parsed before, ?_⟩
    intro text encoded digit parsed
    have accepted : (Number.parseFloat? text.toList).isSome = true := by
      rw [parsed]
      rfl
    have same := Number.decodeAscii_encode_of_isSome accepted
    have begins := Number.head?_encode_of_isSome accepted digit
    rw [← same] at parsed
    rw [← encoded] at parsed begins
    exact tokenize_of_numeral spares begins parsed before

/-- A sign is part of the text of a number, but no number of a scan has one. -/
theorem numerals_of_tokenize_signed :
    let source := Utf8.encode "-1.5 a2 07."
    ∃ tokens after value, Memory.Fits .ofHeap ⟨0⟩ ∧ ScanRules.default.SparesDigits ∧
      WorkspaceM.tokenize ⟨source, ⟨0⟩, .default⟩ ⟨.ofHeap, #[]⟩ =
        .ok (.success tokens) after ∧
      (after.tokenContents tokens).map Token.kind =
        [.minus, .numericLiteral, .identifier, .numericLiteral] ∧
      List.Forall₂ (Scan.ReadsNumber source) (after.tokenContents tokens) [1, 4, 7, 11] ∧
      IsDecimal '-' '.' Numeral.isDigit "-1.5".toList ∧
      ¬IsDecimal '-' '.' Numeral.isDigit "1-5".toList ∧
      Number.parseFloat? "07.".toList = some value ∧
      WorkspaceM.tokenize ⟨Utf8.encode "07.", ⟨0⟩, .default⟩ ⟨.ofHeap, #[]⟩ =
        .ok (.success [⟨.number value, 0⟩]) ⟨.ofHeap, #[]⟩ := by
  intro source
  have fits : Memory.Fits .ofHeap ⟨0⟩ := Memory.fits_of_heap rfl
  have spares : ScanRules.default.SparesDigits := ⟨by decide +kernel, by decide +kernel⟩
  have checked : (match WorkspaceM.tokenize ⟨source, ⟨0⟩, .default⟩ ⟨.ofHeap, #[]⟩ with
    | .ok (.success tokens) after => (after.tokenContents tokens).map Token.kind ==
        [.minus, .numericLiteral, .identifier, .numericLiteral]
    | _ => false) = true := by decide +kernel
  have stops : Scan.stopsFrom .default (Place.start source) = [1, 4, 7, 11] := by decide +kernel
  obtain ⟨reads, -, scanned, alone⟩ := numerals_of_tokenize
  have read : (Number.parseFloat? "07.".toList).isSome = true := by
    rw [Number.parseFloat?, Option.isSome_map]
    decide +kernel
  obtain ⟨value, parsed⟩ := Option.isSome_iff_exists.mp read
  split at checked
  · rename_i tokens after succeeded
    obtain ⟨-, numbers⟩ := scanned _ _ _ _ fits succeeded
    dsimp only at numbers
    rw [stops] at numbers
    refine ⟨tokens, after, value, fits, spares, succeeded, eq_of_beq checked, numbers, ?_, ?_,
      parsed, (alone _ _ value spares).2 "07." rfl rfl parsed⟩
    · refine (reads "-1.5").mp ?_
      rw [Number.parseFloat?, Option.isSome_map]
      decide +kernel
    · rw [← reads, Number.parseFloat?, Option.isSome_map]
      decide +kernel
  · cases checked

end Workspace

end LexKit
