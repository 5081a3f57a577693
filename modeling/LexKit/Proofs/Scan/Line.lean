import LexKit.Proofs.Scan.Shift
import LexKit.Proofs.Symbol.Matching
import Mathlib.Data.List.Find

/-!
# Scans line by line

If neither the marker nor a literal holds a line feed, then only a string reaches over the end of a
line. Two sources with a line feed between them are scanned one after the other, unless the first
leaves a string open: its tokens come first, and then all that the second gives, moved on.
-/

set_option autoImplicit false

namespace LexKit

namespace ScanRules

structure Linewise (rules : ScanRules) : Prop where
  marker : Byte.lineFeed ∉ rules.markerBytes
  literals : ∀ entry ∈ rules.symbols.entries, Byte.lineFeed ∉ entry.literal

def strict (rules : ScanRules) : ScanRules :=
  { rules with strictStrings := true }

end ScanRules

namespace Place

def followedBy (tail : Bytes) (place : Place) : Place :=
  ⟨place.offset, place.rest ++ tail⟩

@[simp]
theorem rest_followedBy (tail : Bytes) (place : Place) :
    (place.followedBy tail).rest = place.rest ++ tail :=
  rfl

theorem skipWhile_followedBy (accepts : UInt8 → Bool) (tail : Bytes) (place : Place) :
    (place.followedBy tail).skipWhile accepts =
      ((place.skipWhile accepts).followedBy tail).skipWhile accepts := by
  obtain ⟨offset, rest⟩ := place
  induction rest generalizing offset with
  | nil => rfl
  | cons byte rest ih =>
      cases accepted : accepts byte with
      | true => simpa [skipWhile, skipFrom, followedBy, accepted] using ih (offset + 1)
      | false => simp [skipWhile, skipFrom, followedBy, accepted]

theorem skipWhile_eq_self {accepts : UInt8 → Bool} {place : Place}
    (stops : place.rest.head?.any accepts = false) : place.skipWhile accepts = place := by
  obtain ⟨offset, rest⟩ := place
  cases rest with
  | nil => rfl
  | cons byte rest =>
      have rejected : accepts byte = false := stops
      simp [skipWhile, skipFrom, rejected]

theorem head_followedBy_skipWhile {accepts : UInt8 → Bool} {byte : UInt8} (tail : Bytes)
    (rejected : accepts byte = false) (place : Place) :
    ((place.skipWhile accepts).followedBy (byte :: tail)).rest.head?.any accepts = false := by
  have stops := head_skipWhile accepts place
  rw [rest_followedBy]
  cases reads : (place.skipWhile accepts).rest with
  | nil => exact rejected
  | cons first rest =>
      rw [reads] at stops
      exact stops

theorem skipWhile_followedBy_of_rejected {accepts : UInt8 → Bool} {byte : UInt8} (tail : Bytes)
    (rejected : accepts byte = false) (place : Place) :
    (place.followedBy (byte :: tail)).skipWhile accepts =
      (place.skipWhile accepts).followedBy (byte :: tail) := by
  rw [skipWhile_followedBy,
    skipWhile_eq_self (head_followedBy_skipWhile tail rejected place)]

theorem takeWhile_followedBy {accepts : UInt8 → Bool} {byte : UInt8} (tail : Bytes)
    (rejected : accepts byte = false) (rest : Bytes) :
    (rest ++ byte :: tail).takeWhile accepts = rest.takeWhile accepts := by
  induction rest with
  | nil => simp [rejected]
  | cons first rest ih =>
      cases accepted : accepts first with
      | true => simp [accepted, ih]
      | false => simp [accepted]

end Place

/-! ## What a line feed hides -/

namespace Scan

variable {rules : ScanRules}

private theorem prefix_append_iff {literal rest tail : Bytes} {byte : UInt8}
    (absent : byte ∉ literal) : literal <+: rest ++ byte :: tail ↔ literal <+: rest := by
  constructor
  · intro reads
    rcases Nat.le_total literal.length rest.length with shorter | longer
    · exact List.prefix_of_prefix_length_le reads (List.prefix_append rest _) shorter
    · by_cases same : literal.length = rest.length
      · exact List.prefix_of_prefix_length_le reads (List.prefix_append rest _) (Nat.le_of_eq same)
      · -- A longer literal would reach over the byte.
        have reaches : rest ++ [byte] <+: literal := by
          refine List.prefix_of_prefix_length_le ⟨tail, by simp⟩ reads ?_
          rw [List.length_append, List.length_singleton]
          omega
        exact absurd (reaches.subset (by simp)) absent
  · rintro ⟨after, rfl⟩
    exact ⟨after ++ byte :: tail, by simp⟩

private theorem isPrefixOf_append {literal : Bytes} {byte : UInt8} (absent : byte ∉ literal)
    (rest tail : Bytes) : literal.isPrefixOf (rest ++ byte :: tail) = literal.isPrefixOf rest := by
  rw [Bool.eq_iff_iff, List.isPrefixOf_iff_prefix, List.isPrefixOf_iff_prefix]
  exact prefix_append_iff absent

private theorem accepts_append {entry : SymbolEntry} (absent : Byte.lineFeed ∉ entry.literal)
    (rest tail : Bytes) : entry.accepts (rest ++ Byte.lineFeed :: tail) = entry.accepts rest := by
  unfold SymbolEntry.accepts
  rw [isPrefixOf_append absent]
  cases reads : entry.literal.isPrefixOf rest with
  | false => rfl
  | true =>
      have le := (List.isPrefixOf_iff_prefix.mp reads).length_le
      -- A word looks at one byte behind it, and a line feed there is as good as the end.
      have ends : SymbolEntry.endsWord ((rest ++ Byte.lineFeed :: tail).drop entry.literal.length) =
          SymbolEntry.endsWord (rest.drop entry.literal.length) := by
        rw [List.drop_append_of_le_length le]
        cases rest.drop entry.literal.length with
        | nil => rfl
        | cons follower after => rfl
      rw [ends]

theorem match?_append (linewise : rules.Linewise) (rest tail : Bytes) :
    rules.symbols.match? (rest ++ Byte.lineFeed :: tail) = rules.symbols.match? rest :=
  List.find?_congr fun entry member => accepts_append (linewise.literals entry member) rest tail

/-! ## Tokens in front of a line feed -/

private theorem numeral_followedBy {offset : Nat} {text : Bytes} {following next : Place}
    {token : Token Bytes} (taken : numeral offset text following = .token token next)
    (tail : Bytes) :
    numeral offset text (following.followedBy tail) = .token token (next.followedBy tail) := by
  unfold numeral at taken ⊢
  split at taken
  · cases taken
    rfl
  · cases taken

private theorem head_followedBy_ne {place : Place} {byte other : UInt8}
    (head : place.rest.head? ≠ some other) (different : byte ≠ other) (tail : Bytes) :
    (place.followedBy (byte :: tail)).rest.head? ≠ some other := by
  rw [Place.rest_followedBy]
  cases reads : place.rest with
  | nil => simpa using different
  | cons first rest =>
      rw [reads] at head
      exact head

private theorem number_followedBy {here next : Place} {token : Token Bytes}
    (taken : number here = .token token next) (tail : Bytes) :
    number (here.followedBy (Byte.lineFeed :: tail)) =
      .token token (next.followedBy (Byte.lineFeed :: tail)) := by
  have rejected : Byte.isDigit Byte.lineFeed = false := rfl
  have whole := Place.skipWhile_followedBy_of_rejected tail rejected here
  by_cases unpointed : (here.skipWhile Byte.isDigit).rest.head? = some Byte.point
  · obtain ⟨after, pointed⟩ := List.head?_eq_some_iff.mp unpointed
    have pointedOn : ((here.followedBy (Byte.lineFeed :: tail)).skipWhile Byte.isDigit).rest =
        Byte.point :: (after ++ Byte.lineFeed :: tail) := by
      rw [whole, Place.rest_followedBy, pointed, List.cons_append]
    have offset : ((here.followedBy (Byte.lineFeed :: tail)).skipWhile Byte.isDigit).offset =
        (here.skipWhile Byte.isDigit).offset := by
      rw [whole]
      rfl
    have fraction : Place.skipFrom Byte.isDigit ((here.skipWhile Byte.isDigit).offset + 1)
        (after ++ Byte.lineFeed :: tail) =
          (Place.skipFrom Byte.isDigit ((here.skipWhile Byte.isDigit).offset + 1) after).followedBy
            (Byte.lineFeed :: tail) :=
      Place.skipWhile_followedBy_of_rejected tail rejected
        ⟨(here.skipWhile Byte.isDigit).offset + 1, after⟩
    rw [number_eq_of_pointed pointed] at taken
    rw [number_eq_of_pointed pointedOn]
    dsimp only at taken ⊢
    split at taken
    · cases taken
    · rename_i single
      rw [offset, fraction, if_neg (head_followedBy_ne single (by decide) tail),
        Place.rest_followedBy, Place.takeWhile_followedBy tail rejected,
        Place.takeWhile_followedBy tail rejected]
      exact numeral_followedBy taken _
  · rw [number_eq_of_unpointed unpointed] at taken
    have unpointedOn : ((here.followedBy (Byte.lineFeed :: tail)).skipWhile
        Byte.isDigit).rest.head? ≠ some Byte.point := by
      rw [whole]
      exact head_followedBy_ne unpointed (by decide) tail
    rw [number_eq_of_unpointed unpointedOn, whole, Place.rest_followedBy,
      Place.takeWhile_followedBy tail rejected]
    exact numeral_followedBy taken _

private theorem string_followedBy {offset : Nat} {content : Bytes} {next : Place}
    {token : Token Bytes} (taken : string true offset content = .token token next)
    (strictStrings : Bool) (tail : Bytes) :
    string strictStrings offset (content ++ tail) = .token token (next.followedBy tail) := by
  rcases string_eq_token taken with ⟨lenient, -⟩ | ⟨text, after, unquoted, rfl, rfl, rfl⟩
  · cases lenient
  · rw [List.append_assoc, List.cons_append, string_closed unquoted]
    rfl

/-- A token without an open string is taken in front of a line feed too. -/
theorem step_followedBy (linewise : rules.Linewise) {here next : Place} {byte : UInt8}
    {rest : Bytes} {token : Token Bytes}
    (taken : step rules.strict here byte rest = .token token next) (tail : Bytes) :
    step rules (here.followedBy (Byte.lineFeed :: tail)) byte (rest ++ Byte.lineFeed :: tail) =
      .token token (next.followedBy (Byte.lineFeed :: tail)) := by
  have unmoved : rules.symbols.match? (here.followedBy (Byte.lineFeed :: tail)).rest =
      rules.strict.symbols.match? here.rest := match?_append linewise here.rest tail
  unfold step at taken ⊢
  rw [unmoved]
  cases found : rules.strict.symbols.match? here.rest with
  | some entry =>
      rw [found] at taken
      cases taken
      have accepted : entry.accepts here.rest = true := by simpa using List.find?_some found
      have reads := (SymbolEntry.accepts_prefix accepted).length_le
      simp only [Place.advance, Place.followedBy, List.drop_append_of_le_length reads]
  | none =>
      rw [found] at taken
      dsimp only at taken ⊢
      split at taken
      · rename_i letter
        cases taken
        have rejected : Byte.isIdentifierPart Byte.lineFeed = false := rfl
        rw [if_pos letter, identifier, Place.skipWhile_followedBy_of_rejected tail rejected,
          Place.rest_followedBy, Place.takeWhile_followedBy tail rejected]
        rfl
      · rename_i letter
        rw [if_neg letter]
        split at taken
        · rename_i quoted
          rw [if_pos quoted]
          exact string_followedBy taken _ _
        · rename_i quoted
          rw [if_neg quoted]
          split at taken
          · rename_i digit
            rw [if_pos digit]
            exact number_followedBy taken tail
          · cases taken

/-- Only the rule for strings looks at whether strings are strict. -/
theorem step_strict (rules : ScanRules) (here : Place) (byte : UInt8) (rest : Bytes) :
    step rules.strict here byte rest = step rules here byte rest ∨
      step rules.strict here byte rest = string true here.offset rest ∧
        step rules here byte rest = string rules.strictStrings here.offset rest := by
  have unmoved : rules.strict.symbols.match? here.rest = rules.symbols.match? here.rest := rfl
  unfold step
  rw [unmoved]
  cases rules.symbols.match? here.rest with
  | some entry => exact .inl rfl
  | none =>
      cases Byte.isLetter byte with
      | true => exact .inl rfl
      | false =>
          cases byte == Byte.quote with
          | true => exact .inr ⟨rfl, rfl⟩
          | false => exact .inl rfl

theorem step_of_strict {here next : Place} {byte : UInt8} {rest : Bytes} {token : Token Bytes}
    (taken : step rules.strict here byte rest = .token token next) :
    step rules here byte rest = .token token next := by
  rcases step_strict rules here byte rest with same | ⟨closed, lenient⟩
  · exact same.symm.trans taken
  · -- A strict string has its end, so whatever follows does not matter, also nothing.
    have followed := string_followedBy (closed.symm.trans taken) rules.strictStrings []
    rw [List.append_nil] at followed
    rw [lenient, followed]
    simp [Place.followedBy]

/-! ## Trivia in front of a line feed -/

theorem skipTrivia_strict (place : Place) :
    skipTrivia rules.strict place = skipTrivia rules place := by
  fun_induction skipTrivia rules place with
  | case1 place commented ih => exact (@skipTrivia_of_commented rules.strict _ commented).trans ih
  | case2 place plain blank ih =>
      exact (@skipTrivia_of_blank rules.strict _ (eq_false_of_ne_true plain) blank).trans ih
  | case3 place plain solid =>
      exact skipTrivia_eq_self (eq_false_of_ne_true plain) (eq_false_of_ne_true solid)

private theorem skipTrivia_skipWhitespace {place : Place}
    (apart : rules.markerBytes.isPrefixOf place.rest = true →
      place.rest.head?.any Byte.isWhitespace = false) :
    skipTrivia rules place.skipWhitespace = skipTrivia rules place := by
  cases blank : place.rest.head?.any Byte.isWhitespace with
  | false => rw [Place.skipWhitespace, Place.skipWhile_eq_self blank]
  | true =>
      cases commented : rules.markerBytes.isPrefixOf place.rest with
      | false => exact (skipTrivia_of_blank commented blank).symm
      | true =>
          rw [apart commented] at blank
          cases blank

private theorem isPrefixOf_followedBy (linewise : rules.Linewise) (place : Place) (tail : Bytes) :
    rules.markerBytes.isPrefixOf (place.followedBy (Byte.lineFeed :: tail)).rest =
      rules.markerBytes.isPrefixOf place.rest :=
  isPrefixOf_append linewise.marker place.rest tail

private theorem not_commented_nil : rules.markerBytes.isPrefixOf [] = false := by
  cases shape : rules.markerBytes with
  | nil => exact absurd shape rules.marker_ne
  | cons byte marker => rfl

private theorem head_followedBy {place : Place} (unended : place.rest ≠ []) (tail : Bytes) :
    (place.followedBy tail).rest.head? = place.rest.head? := by
  obtain ⟨byte, rest, reads⟩ := List.exists_cons_of_ne_nil unended
  rw [Place.rest_followedBy, reads, List.cons_append, List.head?_cons, List.head?_cons]

private theorem skipComment_followedBy {place : Place}
    (commented : rules.markerBytes.isPrefixOf place.rest = true) (tail : Bytes) :
    skipComment rules (place.followedBy (Byte.lineFeed :: tail)) =
      (skipComment rules place).followedBy (Byte.lineFeed :: tail) := by
  have le := (List.isPrefixOf_iff_prefix.mp commented).length_le
  have moved : (place.followedBy (Byte.lineFeed :: tail)).advance rules.markerBytes.length =
      (place.advance rules.markerBytes.length).followedBy (Byte.lineFeed :: tail) := by
    simp only [Place.advance, Place.followedBy, List.drop_append_of_le_length le]
  rw [skipComment, moved, Place.skipToLineEnd,
    Place.skipWhile_followedBy_of_rejected tail (by decide)]
  rfl

private theorem skipTrivia_followedBy (linewise : rules.Linewise) (tail : Bytes) (place : Place) :
    skipTrivia rules (place.followedBy (Byte.lineFeed :: tail)) =
      skipTrivia rules ((skipTrivia rules place).followedBy (Byte.lineFeed :: tail)) := by
  fun_induction skipTrivia rules place with
  | case1 place commented ih =>
      rw [← ih, ← skipComment_followedBy commented]
      exact skipTrivia_of_commented ((isPrefixOf_followedBy linewise place tail).trans commented)
  | case2 place plain blank ih =>
      have unended : place.rest ≠ [] := by
        intro ended
        rw [ended] at blank
        cases blank
      have unmarked := (isPrefixOf_followedBy linewise place tail).trans (eq_false_of_ne_true plain)
      have blankOn := blank
      rw [← head_followedBy unended (Byte.lineFeed :: tail)] at blankOn
      rw [skipTrivia_of_blank unmarked blankOn, ← ih, Place.skipWhitespace,
        Place.skipWhile_followedBy]
      refine skipTrivia_skipWhitespace fun commented => ?_
      -- Behind whitespace stands another byte, or the line feed, which begins no comment.
      rw [isPrefixOf_followedBy linewise] at commented
      have reads : place.skipWhitespace.rest ≠ [] := by
        intro ended
        rw [Place.skipWhitespace] at ended
        rw [ended, not_commented_nil] at commented
        cases commented
      rw [← Place.skipWhitespace, head_followedBy reads]
      exact Place.head_skipWhile Byte.isWhitespace place
  | case3 => rfl

theorem skipTrivia_followedBy_of_reads (linewise : rules.Linewise) {place : Place}
    (unended : (skipTrivia rules place).rest ≠ []) (tail : Bytes) :
    skipTrivia rules (place.followedBy (Byte.lineFeed :: tail)) =
      (skipTrivia rules place).followedBy (Byte.lineFeed :: tail) := by
  rw [skipTrivia_followedBy linewise]
  refine skipTrivia_eq_self ?_ ?_
  · rw [isPrefixOf_followedBy linewise]
    exact not_commented_skipTrivia rules place
  · rw [head_followedBy unended]
    exact not_blank_skipTrivia rules place

theorem skipTrivia_followedBy_of_ended (linewise : rules.Linewise) {place : Place} {tail : Bytes}
    (apart : rules.markerBytes.isPrefixOf tail = true → tail.head?.any Byte.isWhitespace = false)
    (ended : (skipTrivia rules place).rest = []) :
    skipTrivia rules (place.followedBy (Byte.lineFeed :: tail)) =
      skipTrivia rules ⟨place.offset + place.rest.length + 1, tail⟩ := by
  obtain ⟨gap, moved, -⟩ := over_skipTrivia rules place
  have total := moved.length_eq
  rw [ended, List.length_nil, Nat.add_zero] at total
  have unmarked := isPrefixOf_followedBy linewise (skipTrivia rules place) tail
  rw [ended, not_commented_nil] at unmarked
  have blank : ((skipTrivia rules place).followedBy
      (Byte.lineFeed :: tail)).rest.head?.any Byte.isWhitespace = true := by
    rw [Place.rest_followedBy, ended]
    rfl
  have behind := @skipTrivia_skipWhitespace rules ⟨place.offset + place.rest.length + 1, tail⟩ apart
  rw [skipTrivia_followedBy linewise, skipTrivia_of_blank unmarked blank, ← behind]
  -- The line feed is the first of the whitespace that is skipped here.
  congr 1
  rw [← total, Place.skipWhitespace, Place.followedBy, ended]
  rfl

/-! ## Scans in front of a line feed -/

/-- A scan that went through under strict rules goes through in the same way under lenient ones, as
every string has its end. -/
theorem Yields.of_strict {place : Place} {tokens : List (Token Bytes)} {ending : ScanEnding}
    (derived : Yields rules.strict place tokens ending) (completed : ending = .complete) :
    Yields rules place tokens ending := by
  induction derived with
  | complete ended =>
      rw [skipTrivia_strict] at ended
      exact .complete ended
  | failed => cases completed
  | token reads taken _ ih =>
      rw [skipTrivia_strict] at reads taken
      exact .token reads (step_of_strict taken) (ih completed)

/-- The tokens up to a line feed come first, and then those behind it. -/
theorem Yields.append (linewise : rules.Linewise) {place : Place} {tail : Bytes}
    {tokens later : List (Token Bytes)} {ending last : ScanEnding}
    (derived : Yields rules.strict place tokens ending) (completed : ending = .complete)
    (apart : rules.markerBytes.isPrefixOf tail = true → tail.head?.any Byte.isWhitespace = false)
    (behind : Yields rules ⟨place.offset + place.rest.length + 1, tail⟩ later last) :
    Yields rules (place.followedBy (Byte.lineFeed :: tail)) (tokens ++ later) last := by
  induction derived with
  | complete ended =>
      rw [skipTrivia_strict] at ended
      exact behind.of_skipTrivia_eq (skipTrivia_followedBy_of_ended linewise apart ended).symm
  | failed => cases completed
  | @token place next byte rest token tokens ending reads taken _ ih =>
      obtain ⟨gap, moved, -⟩ := over_skipTrivia rules.strict place
      obtain ⟨text, -, movedOn, -⟩ := step_spells reads taken
      have total := (movedOn.length_eq).trans moved.length_eq
      rw [← total] at behind
      rw [skipTrivia_strict] at reads taken
      have unended : (skipTrivia rules place).rest ≠ [] := by
        rw [reads]
        exact List.cons_ne_nil _ _
      have skipped := skipTrivia_followedBy_of_reads linewise unended tail
      have readsOn : (skipTrivia rules (place.followedBy (Byte.lineFeed :: tail))).rest =
          byte :: (rest ++ Byte.lineFeed :: tail) := by
        rw [skipped, Place.rest_followedBy, reads, List.cons_append]
      have takenOn := step_followedBy linewise taken tail
      rw [← skipped] at takenOn
      exact .token readsOn takenOn (ih completed behind)

theorem run_eq_of_strict {source : Bytes} (closed : (run rules.strict source).ending = .complete) :
    run rules source = run rules.strict source :=
  ((yields_runFrom rules.strict (Place.start source)).of_strict closed).runFrom_eq

/-- The scan of two sources with a line feed between them, where the first leaves no string open. -/
theorem run_append_lineFeed (linewise : rules.Linewise)
    (solid : rules.markerBytes.head?.any Byte.isWhitespace = false) {first second : Bytes}
    (closed : (run rules.strict first).ending = .complete) :
    run rules (first ++ Byte.lineFeed :: second) =
      ⟨(run rules first).tokens ++
          (run rules second).tokens.map (Token.shift (first.length + 1)),
        (run rules second).ending.shift (first.length + 1)⟩ := by
  have apart : rules.markerBytes.isPrefixOf second = true →
      second.head?.any Byte.isWhitespace = false := by
    intro commented
    obtain ⟨after, rfl⟩ := List.isPrefixOf_iff_prefix.mp commented
    obtain ⟨byte, marker, shape⟩ := List.exists_cons_of_ne_nil rules.marker_ne
    rw [← ScanRules.markerBytes] at shape
    rw [shape] at solid ⊢
    exact solid
  have strictly := yields_runFrom rules.strict (Place.start first)
  have later := (yields_runFrom rules (Place.start second)).shift (first.length + 1)
  have start : (Place.start second).shift (first.length + 1) =
      ⟨(Place.start first).offset + (Place.start first).rest.length + 1, second⟩ := by
    simp only [Place.shift, Place.start, Nat.zero_add]
  rw [start] at later
  rw [run_eq_of_strict closed]
  exact (strictly.append linewise closed apart later).runFrom_eq

end Scan

end LexKit
