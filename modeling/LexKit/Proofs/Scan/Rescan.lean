import LexKit.Proofs.Scan.Line
import LexKit.Proofs.Scan.Tiling
import LexKit.Proofs.Scan.Truncation
import LexKit.Proofs.Symbol.Arrangement

/-!
# Lexemes that are scanned again

The bytes of each token, cut out of the source and put on lines of their own, are scanned to the
same tokens. A lexeme that stands alone could at most become a word that was forbidden before,
because an identifier character followed. Words begin with a letter, so it would have been part of
an identifier, and an identifier leaves no such character behind.
-/

set_option autoImplicit false

namespace LexKit

namespace SymbolTable

def Worded (table : SymbolTable) : Prop :=
  ∀ entry ∈ table.entries, entry.isWord = true → entry.literal.head?.any Byte.isLetter = true

instance (table : SymbolTable) : Decidable table.Worded :=
  inferInstanceAs (Decidable (∀ entry ∈ table.entries,
    entry.isWord = true → entry.literal.head?.any Byte.isLetter = true))

end SymbolTable

namespace Scan

variable {rules : ScanRules}

/-- The source bytes of each token, from its offset to where the scan stands behind it. -/
def lexemes (rules : ScanRules) (source : Bytes) : List Bytes :=
  List.zipWith (fun token stop => source.extract token.offset stop) (run rules source).tokens
    (stopsFrom rules (Place.start source))

def printed (rules : ScanRules) (source : Bytes) : Bytes :=
  [Byte.lineFeed].intercalate (lexemes rules source)

/-! ## A lexeme that stands alone -/

private theorem cut_of_over {here next : Place} {text : Bytes} (moved : Place.Over here text next) :
    here.cut next.offset = ⟨here.offset, text⟩ ∧ next.cut next.offset = ⟨next.offset, []⟩ := by
  refine ⟨?_, ?_⟩
  · rw [Place.cut, moved.rest_eq, moved.offset_eq, Nat.add_sub_cancel_left, List.take_left]
  · rw [Place.cut, Nat.sub_self, List.take_zero]

private theorem match?_lexeme (worded : rules.symbols.Worded) {here next : Place} {byte : UInt8}
    {rest text : Bytes} {token : Token Bytes} (reads : here.rest = byte :: rest)
    (taken : step rules here byte rest = .token token next) (moved : Place.Over here text next)
    (nonempty : text ≠ []) :
    rules.symbols.match? text = rules.symbols.match? here.rest := by
  have within : ∀ entry, rules.symbols.match? here.rest = some entry →
      here.offset + entry.literal.length ≤ next.offset := by
    intro entry found
    rw [step_of_symbol byte rest found] at taken
    cases taken
    exact Nat.le_refl _
  have revealed := match?_cut within
  rw [(cut_of_over moved).1, moved.offset_eq, Nat.add_sub_cancel_left] at revealed
  rcases revealed with same | ⟨entry, found, length⟩
  · exact same
  · obtain ⟨member, accepted, -⟩ := SymbolTable.match?_eq_some_iff.mp found
    have whole : entry.literal = text :=
      (SymbolEntry.accepts_prefix accepted).eq_of_length length
    have stands : entry.literal <+: here.rest := ⟨next.rest, by rw [whole, moved.rest_eq]⟩
    cases before : rules.symbols.match? here.rest with
    | some other =>
        obtain ⟨otherMember, otherAccepted, -⟩ := SymbolTable.match?_eq_some_iff.mp before
        rw [step_of_symbol byte rest before] at taken
        cases taken
        have lengths := moved.offset_eq
        simp only [Place.advance] at lengths
        have same := SymbolTable.eq_of_prefix member otherMember stands
          (SymbolEntry.accepts_prefix otherAccepted) (by omega)
        rw [found, same]
    | none =>
        -- The entry is a word that an identifier character follows.
        exfalso
        have refused := SymbolTable.match?_eq_none_iff.mp before entry member
        have behind : here.rest.drop entry.literal.length = next.rest := by
          rw [whole, moved.rest_eq, List.drop_left]
        simp only [SymbolEntry.accepts, SymbolEntry.endsWord, behind,
          List.isPrefixOf_iff_prefix.mpr stands, Bool.true_and, Bool.or_eq_true,
          Bool.not_eq_true', not_or, Bool.not_eq_false] at refused
        obtain ⟨word, followed⟩ := refused
        have letter := worded entry member word
        obtain ⟨first, more, shape⟩ := List.exists_cons_of_ne_nil nonempty
        have split := moved.rest_eq
        rw [reads, shape, List.cons_append] at split
        cases split
        rw [whole, shape] at letter
        have begins : Byte.isLetter byte = true := letter
        rw [step, before] at taken
        dsimp only at taken
        rw [if_pos begins] at taken
        cases taken
        rw [Place.head_skipWhile] at followed
        cases followed

private theorem step_strict_of_rest {here next : Place} {byte : UInt8} {rest : Bytes}
    {token : Token Bytes} (taken : step rules here byte rest = .token token next)
    (unended : next.rest ≠ []) : step rules.strict here byte rest = .token token next := by
  rcases step_strict rules here byte rest with same | ⟨closed, lenient⟩
  · exact same.trans taken
  · -- An open string would take all that is left.
    rw [closed]
    rcases string_eq_token (lenient.symm.trans taken) with
      ⟨-, -, -, rfl⟩ | ⟨text, after, unquoted, rfl, rfl, rfl⟩
    · exact absurd rfl unended
    · exact string_closed unquoted

private theorem skipTrivia_lexeme {place next : Place} {byte : UInt8} {rest text : Bytes}
    (reads : (skipTrivia rules place).rest = byte :: rest)
    (moved : Place.Over (skipTrivia rules place) text next) (nonempty : text ≠ []) (offset : Nat) :
    text.head? = some byte ∧ Byte.isWhitespace byte = false ∧
      skipTrivia rules ⟨offset, text⟩ = ⟨offset, text⟩ := by
  obtain ⟨first, more, rfl⟩ := List.exists_cons_of_ne_nil nonempty
  have split := moved.rest_eq
  rw [reads, List.cons_append] at split
  cases split
  have solid := not_blank_skipTrivia rules place
  rw [reads] at solid
  refine ⟨rfl, solid, skipTrivia_eq_self ?_ solid⟩
  have plain := not_commented_skipTrivia rules place
  refine eq_false_of_ne_true fun commented => ?_
  have marked : rules.markerBytes <+: byte :: (more ++ next.rest) :=
    (List.isPrefixOf_iff_prefix.mp commented).trans (List.prefix_append _ next.rest)
  rw [reads, List.isPrefixOf_iff_prefix.mpr marked] at plain
  cases plain

/-- In front of other bytes a lexeme is scanned by itself, and it is no open string. -/
private theorem yields_lexeme (worded : rules.symbols.Worded) {place next : Place} {byte : UInt8}
    {rest text : Bytes} {token : Token Bytes}
    (reads : (skipTrivia rules place).rest = byte :: rest)
    (taken : step rules (skipTrivia rules place) byte rest = .token token next)
    (moved : Place.Over (skipTrivia rules place) text next) (nonempty : text ≠ [])
    (unended : next.rest ≠ []) :
    Yields rules.strict ⟨(skipTrivia rules place).offset, text⟩ [token] .complete := by
  have lengths := congrArg List.length moved.rest_eq
  have positive := List.length_pos_iff.mpr nonempty
  have more := List.length_pos_iff.mpr unended
  rw [List.length_append] at lengths
  have offset := moved.offset_eq
  obtain ⟨cutHere, cutNext⟩ := cut_of_over moved
  have same : rules.strict.symbols.match? ((skipTrivia rules place).cut next.offset).rest =
      rules.strict.symbols.match? (skipTrivia rules place).rest := by
    rw [cutHere]
    exact match?_lexeme worded reads taken moved nonempty
  have alone := step_cut_of_match? reads (step_strict_of_rest taken unended) (Nat.le_refl _)
    (by omega) same
  have readsAlone := cut_reads reads (show (skipTrivia rules place).offset < next.offset by omega)
  rw [cutHere] at alone readsAlone
  rw [cutNext] at alone
  obtain ⟨-, -, still⟩ :=
    skipTrivia_lexeme reads moved nonempty (skipTrivia rules place).offset
  rw [← skipTrivia_strict] at still
  rw [← still] at readsAlone alone
  exact yields_last readsAlone alone rfl

private theorem yields_last_lexeme {place next : Place} {byte : UInt8} {rest text : Bytes}
    {token : Token Bytes} (reads : (skipTrivia rules place).rest = byte :: rest)
    (taken : step rules (skipTrivia rules place) byte rest = .token token next)
    (moved : Place.Over (skipTrivia rules place) text next) (nonempty : text ≠ [])
    (ended : next.rest = []) :
    Yields rules ⟨(skipTrivia rules place).offset, text⟩ [token] .complete := by
  obtain ⟨-, -, still⟩ :=
    skipTrivia_lexeme reads moved nonempty (skipTrivia rules place).offset
  have whole : (⟨(skipTrivia rules place).offset, text⟩ : Place) = skipTrivia rules place := by
    have split := moved.rest_eq
    rw [ended, List.append_nil] at split
    rw [← split]
  rw [whole] at still ⊢
  rw [← still] at reads taken
  exact yields_last reads taken ended

/-! ## Lexemes on lines of their own -/

/-- The texts of tokens, each up to where it stops, on lines of their own. -/
private def linesOf (source : Bytes) (tokens : List (Token Bytes)) (stops : List Nat) : Bytes :=
  [Byte.lineFeed].intercalate
    (List.zipWith (fun token stop => source.extract token.offset stop) tokens stops)

private theorem rest_ne_nil_of_yields {place : Place} {token : Token Bytes}
    {tokens : List (Token Bytes)} {ending : ScanEnding}
    (derived : Yields rules place (token :: tokens) ending) : place.rest ≠ [] :=
  fun ended => List.cons_ne_nil token tokens (derived.eq_of_ended ended).1

private theorem yields_linesOf (linewise : rules.Linewise) (worded : rules.symbols.Worded)
    {source : Bytes} {place : Place} {tokens : List (Token Bytes)} {ending : ScanEnding}
    (derived : Yields rules place tokens ending) (completed : ending = .complete)
    (within : Place.Within source place) (offset : Nat) :
    (linesOf source tokens (stopsFrom rules place)).head?.any Byte.isWhitespace = false ∧
      ∃ again,
        Yields rules ⟨offset, linesOf source tokens (stopsFrom rules place)⟩ again .complete ∧
        again.map Token.lexeme = tokens.map Token.lexeme := by
  induction derived generalizing offset with
  | complete ended => exact ⟨rfl, [], .complete (skipTrivia_end rfl), rfl⟩
  | failed => cases completed
  | @token place next byte rest token tokens ending reads taken behind ih =>
      obtain ⟨gap, moved, -⟩ := over_skipTrivia rules place
      obtain ⟨text, nonempty, movedOn, tokenOffset, -⟩ := step_spells reads taken
      have here := within.over moved
      have cut := here.extract_eq movedOn
      rw [← tokenOffset] at cut
      obtain ⟨head, solid, -⟩ := skipTrivia_lexeme reads movedOn nonempty offset
      rw [stopsFrom_token reads taken]
      cases tokens with
      | nil =>
          have lines : linesOf source [token] (next.offset :: stopsFrom rules next) = text := by
            rw [linesOf, List.zipWith_cons_cons, cut, List.zipWith_nil_left]
            exact List.intercalate_singleton
          rw [lines, head]
          have alone : Yields rules ⟨(skipTrivia rules place).offset, text⟩ [token] .complete := by
            by_cases ended : next.rest = []
            · exact yields_last_lexeme reads taken movedOn nonempty ended
            · exact (yields_lexeme worded reads taken movedOn nonempty ended).of_strict rfl
          exact ⟨solid, alone.relocated rfl⟩
      | cons second tokens =>
          obtain ⟨laterSolid, later, yields, same⟩ :=
            ih completed (here.over movedOn) (offset + text.length + 1)
          have lines : linesOf source (token :: second :: tokens)
              (next.offset :: stopsFrom rules next) =
                text ++ Byte.lineFeed ::
                  linesOf source (second :: tokens) (stopsFrom rules next) := by
            obtain ⟨stop, stops, shape⟩ := List.exists_cons_of_length_eq_add_one
              (tiling_of_yields behind completed (here.over movedOn)).length_stops
            rw [shape, linesOf, linesOf, List.zipWith_cons_cons, cut, List.zipWith_cons_cons,
              List.intercalate_cons_cons, List.append_assoc, List.singleton_append]
          have alone := yields_lexeme worded reads taken movedOn nonempty
            (rest_ne_nil_of_yields behind)
          obtain ⟨first, moved, sameFirst⟩ :=
            alone.relocated (show Place.rest ⟨offset, text⟩ = text from rfl)
          have joined := moved.append linewise rfl (fun _ => laterSolid) yields
          rw [lines]
          refine ⟨?_, first ++ later, joined, ?_⟩
          · obtain ⟨byte, more, rfl⟩ := List.exists_cons_of_ne_nil nonempty
            cases head
            exact solid
          · rw [List.map_append, sameFirst, same]
            rfl

/-- The lexemes of a scan that goes through, put on lines of their own, are scanned to the same
tokens; only their offsets change. -/
theorem run_printed (linewise : rules.Linewise) (worded : rules.symbols.Worded) {source : Bytes}
    (completed : (run rules source).ending = .complete) :
    (run rules (printed rules source)).ending = .complete ∧
      (run rules (printed rules source)).tokens.map Token.lexeme =
        (run rules source).tokens.map Token.lexeme := by
  have derived := yields_runFrom rules (Place.start source)
  obtain ⟨-, again, yields, same⟩ :=
    yields_linesOf linewise worded derived completed (Place.Within.start source) 0
  have ran : run rules (printed rules source) = ⟨again, .complete⟩ := yields.runFrom_eq
  rw [ran]
  exact ⟨rfl, same⟩

end Scan

end LexKit
