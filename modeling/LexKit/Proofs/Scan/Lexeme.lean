import LexKit.Proofs.Scan.Derivation
import Mathlib.Data.List.TakeWhile

/-!
# Trivia and lexemes

What stands between tokens is `Trivia`: whitespace and comments. What a token stands for in the
source is the text that `Spells` its lexeme. Skipping trivia and taking one token are shown to move
over exactly such texts.
-/

set_option autoImplicit false

namespace LexKit

/-- `Trivia marker gap after`: in front of `after`, the gap is a concatenation of whitespace bytes
and comments. A comment is the marker and bytes other than line feeds, and ends in front of a line
feed or at the end of the source. -/
inductive Trivia (marker : Bytes) : Bytes → Bytes → Prop where
  | none {after : Bytes} : Trivia marker [] after
  | blank {byte : UInt8} {gap after : Bytes} :
      Byte.isWhitespace byte = true → Trivia marker gap after → Trivia marker (byte :: gap) after
  | comment {body gap after : Bytes} :
      Byte.lineFeed ∉ body → (∀ byte, (gap ++ after).head? = some byte → byte = Byte.lineFeed) →
      Trivia marker gap after → Trivia marker (marker ++ body ++ gap) after

private theorem Trivia.blanks {marker run gap after : Bytes}
    (blank : ∀ byte ∈ run, Byte.isWhitespace byte = true) (trivia : Trivia marker gap after) :
    Trivia marker (run ++ gap) after := by
  induction run with
  | nil => exact trivia
  | cons byte run ih =>
      exact .blank (blank byte List.mem_cons_self)
        (ih fun later member => blank later (List.mem_cons_of_mem byte member))

/-- One or more digits, or such digits with a point and further digits behind them. -/
inductive UnsignedNumeral : Bytes → Prop where
  | whole {digits : Bytes} :
      digits ≠ [] → (∀ byte ∈ digits, Byte.isDigit byte = true) → UnsignedNumeral digits
  | pointed {digits fraction : Bytes} :
      digits ≠ [] → (∀ byte ∈ digits, Byte.isDigit byte = true) →
      (∀ byte ∈ fraction, Byte.isDigit byte = true) →
      UnsignedNumeral (digits ++ Byte.point :: fraction)

def Byte.isNumeralPart (byte : UInt8) : Bool :=
  isDigit byte || byte == point

/-- `Spells rules lexeme text after`: where `text` stands in front of `after`, it is what a token
with this lexeme stands for. -/
inductive Spells (rules : ScanRules) : Lexeme Bytes → Bytes → Bytes → Prop where
  /-- The literal of an entry of the table, for the entry's kind. -/
  | symbol {entry : SymbolEntry} {after : Bytes} :
      entry ∈ rules.symbols.entries → entry.accepts (entry.literal ++ after) = true →
      Spells rules (.symbol entry.kind) entry.literal after
  /-- A letter and a maximal run of identifier characters; the payload is all of it. -/
  | identifier {first : UInt8} {part after : Bytes} :
      Byte.isLetter first = true → (∀ byte ∈ part, Byte.isIdentifierPart byte = true) →
      after.head?.any Byte.isIdentifierPart = false →
      Spells rules (.identifier (first :: part)) (first :: part) after
  /-- A quote, the payload, which holds no quote, and a quote. -/
  | string {text after : Bytes} :
      Byte.quote ∉ text → Spells rules (.string text) (Byte.quote :: text ++ [Byte.quote]) after
  /-- A string without a closing quote, which runs to the end of the source. -/
  | openString {text : Bytes} :
      rules.strictStrings = false → Byte.quote ∉ text →
      Spells rules (.string text) (Byte.quote :: text) []
  /-- A maximal numeral; the payload is the number that it is read as. -/
  | number {text after : Bytes} {value : Float} :
      UnsignedNumeral text → after.head?.any Byte.isNumeralPart = false →
      Number.parseFloat? (Utf8.decodeAscii text) = some value →
      Spells rules (.number value) text after

namespace Scan

variable {rules : ScanRules}

theorem over_skipComment {place : Place}
    (commented : rules.markerBytes.isPrefixOf place.rest = true) :
    ∃ body, Place.Over place (rules.markerBytes ++ body) (skipComment rules place) ∧
      Byte.lineFeed ∉ body ∧
      ∀ byte, (skipComment rules place).rest.head? = some byte → byte = Byte.lineFeed := by
  have marked := Place.over_advance (List.isPrefixOf_iff_prefix.mp commented)
  have skipped := Place.over_skipWhile (· != Byte.lineFeed)
    (place.advance rules.markerBytes.length)
  refine ⟨_, marked.trans skipped, ?_, ?_⟩
  · intro member
    have kept := List.mem_takeWhile_imp member
    simp at kept
  · intro byte found
    have stopped := Place.head_skipWhile (· != Byte.lineFeed)
      (place.advance rules.markerBytes.length)
    rw [skipComment, Place.skipToLineEnd] at found
    rw [found] at stopped
    simpa using stopped

/-- What is skipped is whitespace and comments, in any mix. Each comment is whole: it ends in front
of a line feed or at the end of the source. -/
theorem over_skipTrivia (rules : ScanRules) (place : Place) :
    ∃ gap, Place.Over place gap (skipTrivia rules place) ∧
      Trivia rules.markerBytes gap (skipTrivia rules place).rest := by
  fun_induction skipTrivia rules place with
  | case1 place commented ih =>
      obtain ⟨body, moved, unbroken, stopped⟩ := over_skipComment commented
      obtain ⟨gap, movedOn, trivia⟩ := ih
      refine ⟨_, moved.trans movedOn, .comment unbroken ?_ trivia⟩
      rwa [← movedOn.rest_eq]
  | case2 place _ blank ih =>
      obtain ⟨gap, movedOn, trivia⟩ := ih
      have moved := Place.over_skipWhile Byte.isWhitespace place
      exact ⟨_, moved.trans movedOn, trivia.blanks fun byte member => List.mem_takeWhile_imp member⟩
  | case3 place => exact ⟨[], Place.Over.refl place, .none⟩

theorem skipTrivia_of_commented {place : Place}
    (commented : rules.markerBytes.isPrefixOf place.rest = true) :
    skipTrivia rules place = skipTrivia rules (skipComment rules place) := by
  rw [skipTrivia, if_pos commented]

theorem skipTrivia_of_blank {place : Place}
    (plain : rules.markerBytes.isPrefixOf place.rest = false)
    (blank : place.rest.head?.any Byte.isWhitespace = true) :
    skipTrivia rules place = skipTrivia rules place.skipWhitespace := by
  rw [skipTrivia, plain, if_neg Bool.false_ne_true, if_pos blank]

theorem skipTrivia_eq_self {place : Place}
    (plain : rules.markerBytes.isPrefixOf place.rest = false)
    (solid : place.rest.head?.any Byte.isWhitespace = false) : skipTrivia rules place = place := by
  rw [skipTrivia, plain, solid, if_neg Bool.false_ne_true, if_neg Bool.false_ne_true]

theorem not_commented_skipTrivia (rules : ScanRules) (place : Place) :
    rules.markerBytes.isPrefixOf (skipTrivia rules place).rest = false := by
  fun_induction skipTrivia rules place with
  | case1 _ _ ih => exact ih
  | case2 _ _ _ ih => exact ih
  | case3 _ plain => exact eq_false_of_ne_true plain

theorem not_blank_skipTrivia (rules : ScanRules) (place : Place) :
    (skipTrivia rules place).rest.head?.any Byte.isWhitespace = false := by
  fun_induction skipTrivia rules place with
  | case1 _ _ ih => exact ih
  | case2 _ _ _ ih => exact ih
  | case3 _ _ solid => simpa using solid

theorem skipTrivia_skipTrivia (rules : ScanRules) (place : Place) :
    skipTrivia rules (skipTrivia rules place) = skipTrivia rules place :=
  skipTrivia_eq_self (not_commented_skipTrivia rules place) (not_blank_skipTrivia rules place)

private theorem identifier_spells {here next : Place} {byte : UInt8} {rest : Bytes}
    {token : Token Bytes} (reads : here.rest = byte :: rest) (letter : Byte.isLetter byte = true)
    (taken : identifier here = .token token next) :
    ∃ text, text ≠ [] ∧ Place.Over here text next ∧ token.offset = here.offset ∧
      Spells rules token.lexeme text next.rest := by
  cases taken
  have accepted : Byte.isIdentifierPart byte = true := by simp [Byte.isIdentifierPart, letter]
  have moved := Place.over_skipWhile Byte.isIdentifierPart here
  have shape : here.rest.takeWhile Byte.isIdentifierPart =
      byte :: rest.takeWhile Byte.isIdentifierPart := by
    rw [reads, List.takeWhile_cons_of_pos accepted]
  refine ⟨_, ?_, moved, rfl, ?_⟩
  · rw [shape]
    exact List.cons_ne_nil _ _
  · dsimp only
    rw [shape]
    exact .identifier letter (fun later member => List.mem_takeWhile_imp member)
      (Place.head_skipWhile Byte.isIdentifierPart here)

theorem string_closed {strictStrings : Bool} {offset : Nat} {text after : Bytes}
    (unquoted : Byte.quote ∉ text) :
    string strictStrings offset (text ++ Byte.quote :: after) =
      .token ⟨.string text, offset⟩ ⟨offset + 1 + text.length + 1, after⟩ := by
  have inside : ∀ byte ∈ text, (byte != Byte.quote) = true := by
    intro byte member
    exact bne_iff_ne.mpr fun same => unquoted (same ▸ member)
  unfold string
  rw [List.takeWhile_append_of_pos inside, List.dropWhile_append_of_pos inside]
  simp

/-- A string runs to the first quote, or, where that is allowed, to the end of the source. -/
theorem string_eq_token {strictStrings : Bool} {offset : Nat} {content : Bytes} {next : Place}
    {token : Token Bytes} (taken : string strictStrings offset content = .token token next) :
    (strictStrings = false ∧ Byte.quote ∉ content ∧ token = ⟨.string content, offset⟩ ∧
      next = ⟨offset + 1 + content.length, []⟩) ∨
    ∃ text after, Byte.quote ∉ text ∧ content = text ++ Byte.quote :: after ∧
      token = ⟨.string text, offset⟩ ∧ next = ⟨offset + 1 + text.length + 1, after⟩ := by
  have split := List.takeWhile_append_dropWhile (p := (· != Byte.quote)) (l := content)
  have unquoted : Byte.quote ∉ content.takeWhile (· != Byte.quote) := by
    intro member
    have kept := List.mem_takeWhile_imp member
    simp at kept
  cases behind : content.dropWhile (· != Byte.quote) with
  | nil =>
      rw [behind, List.append_nil] at split
      rw [split] at unquoted
      unfold string at taken
      rw [behind, split] at taken
      cases strictStrings with
      | true => cases taken
      | false =>
          cases taken
          exact .inl ⟨rfl, unquoted, rfl, rfl⟩
  | cons closing after =>
      have stopped := List.head?_dropWhile_not (· != Byte.quote) content
      rw [behind] at stopped
      have closes : closing = Byte.quote := by simpa using stopped
      rw [behind, closes] at split
      rw [← split, string_closed unquoted] at taken
      cases taken
      exact .inr ⟨_, after, unquoted, split.symm, rfl, rfl⟩

private theorem string_spells {here next : Place} {rest : Bytes} {token : Token Bytes}
    (reads : here.rest = Byte.quote :: rest)
    (taken : string rules.strictStrings here.offset rest = .token token next) :
    ∃ text, text ≠ [] ∧ Place.Over here text next ∧ token.offset = here.offset ∧
      Spells rules token.lexeme text next.rest := by
  rcases string_eq_token taken with ⟨lenient, unquoted, rfl, rfl⟩ |
    ⟨text, after, unquoted, rfl, rfl, rfl⟩
  · refine ⟨_, List.cons_ne_nil _ _, ⟨?_, ?_⟩, rfl, .openString lenient unquoted⟩
    · rw [reads, List.append_nil]
    · simp only [List.length_cons]
      omega
  · refine ⟨_, by simp, ⟨?_, ?_⟩, rfl, .string unquoted⟩
    · rw [reads, List.cons_append, List.cons_append, List.append_assoc, List.singleton_append]
    · simp only [List.length_append, List.length_cons, List.length_nil]
      omega

private theorem numeral_token {offset : Nat} {lexeme : Bytes} {following next : Place}
    {token : Token Bytes} (taken : numeral offset lexeme following = .token token next) :
    ∃ value, Number.parseFloat? (Utf8.decodeAscii lexeme) = some value ∧
      token = ⟨.number value, offset⟩ ∧ next = following := by
  unfold numeral at taken
  split at taken
  · rename_i value parsed
    cases taken
    exact ⟨value, parsed, rfl, rfl⟩
  · cases taken

theorem number_eq_of_unpointed {place : Place}
    (unpointed : (place.skipWhile Byte.isDigit).rest.head? ≠ some Byte.point) :
    number place =
      numeral place.offset (place.rest.takeWhile Byte.isDigit) (place.skipWhile Byte.isDigit) := by
  unfold number
  dsimp only
  split
  · rfl
  · rename_i byte rest reads
    rw [reads] at unpointed
    rw [if_neg]
    simpa using unpointed

/-- Behind digits and a point the number goes on, and must not come to a second point. -/
theorem number_eq_of_pointed {place : Place} {rest : Bytes}
    (pointed : (place.skipWhile Byte.isDigit).rest = Byte.point :: rest) :
    number place =
      let fraction := Place.skipFrom Byte.isDigit ((place.skipWhile Byte.isDigit).offset + 1) rest
      if fraction.rest.head? = some Byte.point then .failed fraction.offset .secondPoint
      else numeral place.offset
        (place.rest.takeWhile Byte.isDigit ++ Byte.point :: rest.takeWhile Byte.isDigit)
        fraction := by
  unfold number
  dsimp only
  split
  · rename_i ended
    rw [pointed] at ended
    cases ended
  · rename_i byte after reads
    rw [pointed] at reads
    cases reads
    rw [if_pos (by simp)]

theorem over_point {place : Place} {rest : Bytes}
    (pointed : (place.skipWhile Byte.isDigit).rest = Byte.point :: rest) :
    Place.Over place
      (place.rest.takeWhile Byte.isDigit ++ Byte.point :: rest.takeWhile Byte.isDigit)
      (Place.skipFrom Byte.isDigit ((place.skipWhile Byte.isDigit).offset + 1) rest) := by
  have whole := Place.over_skipWhile Byte.isDigit place
  have point : Place.Over (place.skipWhile Byte.isDigit) [Byte.point]
      ⟨(place.skipWhile Byte.isDigit).offset + 1, rest⟩ := ⟨pointed, rfl⟩
  exact whole.trans (point.trans (Place.over_skipFrom Byte.isDigit _ rest))

private theorem not_numeralPart {rest : Bytes} (digitless : rest.head?.any Byte.isDigit = false)
    (unpointed : rest.head? ≠ some Byte.point) : rest.head?.any Byte.isNumeralPart = false := by
  cases rest with
  | nil => rfl
  | cons byte rest =>
      simp only [List.head?_cons, Option.any_some, ne_eq, Option.some.injEq] at digitless unpointed
      simp [Byte.isNumeralPart, digitless, unpointed]

theorem takeWhile_digit_ne {place : Place} {byte : UInt8} {rest : Bytes}
    (reads : place.rest = byte :: rest) (digit : Byte.isDigit byte = true) :
    place.rest.takeWhile Byte.isDigit ≠ [] := by
  rw [reads, List.takeWhile_cons_of_pos digit]
  exact List.cons_ne_nil _ _

private theorem number_spells {here next : Place} {byte : UInt8} {rest : Bytes}
    {token : Token Bytes} (reads : here.rest = byte :: rest) (digit : Byte.isDigit byte = true)
    (taken : number here = .token token next) :
    ∃ text, text ≠ [] ∧ Place.Over here text next ∧ token.offset = here.offset ∧
      Spells rules token.lexeme text next.rest := by
  have nonempty := takeWhile_digit_ne reads digit
  have digits : ∀ later ∈ here.rest.takeWhile Byte.isDigit, Byte.isDigit later = true :=
    fun later member => List.mem_takeWhile_imp member
  by_cases unpointed : (here.skipWhile Byte.isDigit).rest.head? = some Byte.point
  · obtain ⟨after, pointed⟩ := List.head?_eq_some_iff.mp unpointed
    rw [number_eq_of_pointed pointed] at taken
    dsimp only at taken
    split at taken
    · cases taken
    · rename_i single
      obtain ⟨value, parsed, rfl, rfl⟩ := numeral_token taken
      have ended := Place.head_skipWhile Byte.isDigit
        ⟨(here.skipWhile Byte.isDigit).offset + 1, after⟩
      refine ⟨_, by simp, over_point pointed, rfl, .number ?_ (not_numeralPart ended single) parsed⟩
      exact .pointed nonempty digits fun later member => List.mem_takeWhile_imp member
  · rw [number_eq_of_unpointed unpointed] at taken
    obtain ⟨value, parsed, rfl, rfl⟩ := numeral_token taken
    have ended := Place.head_skipWhile Byte.isDigit here
    exact ⟨_, nonempty, Place.over_skipWhile Byte.isDigit here, rfl,
      .number (.whole nonempty digits) (not_numeralPart ended unpointed) parsed⟩

private theorem symbol_spells {here : Place} {entry : SymbolEntry}
    (found : rules.symbols.match? here.rest = some entry) :
    entry.literal ≠ [] ∧ Place.Over here entry.literal (here.advance entry.literal.length) ∧
      Spells rules (.symbol entry.kind) entry.literal
        (here.advance entry.literal.length).rest := by
  have member := List.mem_of_find?_eq_some found
  have accepted : entry.accepts here.rest = true := by simpa using List.find?_some found
  have reads : entry.literal <+: here.rest := by
    rw [SymbolEntry.accepts, Bool.and_eq_true] at accepted
    exact List.isPrefixOf_iff_prefix.mp accepted.1
  have moved := Place.over_advance reads
  refine ⟨rules.symbols.nonempty entry member, moved, .symbol member ?_⟩
  rwa [← moved.rest_eq]

/-- A token spells the bytes that its step moved over. They are never none, so the scan always gets
further. -/
theorem step_spells {here next : Place} {byte : UInt8} {rest : Bytes} {token : Token Bytes}
    (reads : here.rest = byte :: rest) (taken : step rules here byte rest = .token token next) :
    ∃ text, text ≠ [] ∧ Place.Over here text next ∧ token.offset = here.offset ∧
      Spells rules token.lexeme text next.rest := by
  unfold step at taken
  split at taken
  · rename_i entry found
    cases taken
    obtain ⟨nonempty, moved, spelled⟩ := symbol_spells found
    exact ⟨_, nonempty, moved, rfl, spelled⟩
  · split at taken
    · rename_i letter
      exact identifier_spells reads letter taken
    · split at taken
      · rename_i quoted
        rw [eq_of_beq quoted] at reads
        exact string_spells reads taken
      · split at taken
        · rename_i digit
          exact number_spells reads digit taken
        · cases taken

end Scan

end LexKit
