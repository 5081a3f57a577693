import LexKit.Proofs.Scan.Tiling
import LexKit.Proofs.Scan.Truncation
import LexKit.Proofs.Symbol.Arrangement
import Mathlib.Data.List.Find
import Mathlib.Data.List.Forall2

/-!
# Words

Where a token starts at a letter, two rules compete for it: the table, whose words must not be
continued, and the identifier rule, which takes all that continues. If everything in the table that
begins like a word is one, both take the same bytes, and a token at a letter is what the table says
of the whole word.
-/

set_option autoImplicit false

namespace LexKit

namespace SymbolTable

/-- Literals that begin with a letter are words, and consist of identifier characters. -/
def KeepsWords (table : SymbolTable) : Prop :=
  ∀ entry ∈ table.entries, entry.literal.head?.any Byte.isLetter = true →
    entry.isWord = true ∧ ∀ byte ∈ entry.literal, Byte.isIdentifierPart byte = true

instance (table : SymbolTable) : Decidable table.KeepsWords :=
  inferInstanceAs (Decidable (∀ entry ∈ table.entries,
    entry.literal.head?.any Byte.isLetter = true →
      entry.isWord = true ∧ ∀ byte ∈ entry.literal, Byte.isIdentifierPart byte = true))

/-- What a word stands for: the symbol that is spelled so, or else itself as an identifier. -/
def lexemeOf (table : SymbolTable) (word : Bytes) : Lexeme Bytes :=
  match table.entries.find? (·.literal == word) with
  | some entry => .symbol entry.kind
  | none => .identifier word

theorem keepsWords_of_ofPairs {pairs : List (String × TokenKind)} {table : SymbolTable}
    (made : ofPairs pairs = .ok table)
    (shaped : ∀ pair ∈ pairs, (Utf8.encode pair.1).head?.any Byte.isLetter = true →
      ∀ byte ∈ Utf8.encode pair.1, Byte.isIdentifierPart byte = true) : table.KeepsWords := by
  intro entry member begins
  obtain ⟨pair, given, rfl⟩ := mem_of_ofPairs made member
  exact ⟨begins, shaped pair given begins⟩

variable {table : SymbolTable} {word rest : Bytes}

theorem lexemeOf_eq_symbol {entry : SymbolEntry} (member : entry ∈ table.entries)
    (spelled : entry.literal = word) : table.lexemeOf word = .symbol entry.kind := by
  unfold lexemeOf
  cases found : table.entries.find? (·.literal == word) with
  | none =>
      have different := List.find?_eq_none.mp found entry member
      simp [spelled] at different
  | some other =>
      have same : other.literal = word := by simpa using List.find?_some found
      have unique := eq_of_literal_eq (List.mem_of_find?_eq_some found) member
        (same.trans spelled.symm)
      rw [unique]

theorem lexemeOf_eq_identifier (unknown : ∀ entry ∈ table.entries, entry.literal ≠ word) :
    table.lexemeOf word = .identifier word := by
  have absent : table.entries.find? (·.literal == word) = none := by
    simpa [List.find?_eq_none] using unknown
  simp [lexemeOf, absent]

theorem eq_of_lexemeOf_eq_identifier {name : Bytes} (named : table.lexemeOf word = .identifier name) :
    name = word ∧ ∀ entry ∈ table.entries, entry.literal ≠ word := by
  by_cases unknown : ∀ entry ∈ table.entries, entry.literal ≠ word
  · rw [lexemeOf_eq_identifier unknown] at named
    cases named
    exact ⟨rfl, unknown⟩
  · simp only [not_forall, not_not] at unknown
    obtain ⟨entry, member, spelled⟩ := unknown
    rw [lexemeOf_eq_symbol member spelled] at named
    cases named

/-- In front of a letter the accepted entries are those that spell the whole word. -/
theorem KeepsWords.accepts_eq (keeps : table.KeepsWords)
    (begins : rest.head?.any Byte.isLetter = true) {entry : SymbolEntry}
    (member : entry ∈ table.entries) :
    entry.accepts rest = (entry.literal == rest.takeWhile Byte.isIdentifierPart) := by
  rw [Bool.eq_iff_iff, beq_iff_eq]
  constructor
  · intro accepted
    obtain ⟨after, split⟩ := SymbolEntry.accepts_prefix accepted
    obtain ⟨byte, literal, shape⟩ := List.exists_cons_of_ne_nil (table.nonempty entry member)
    have letter : entry.literal.head?.any Byte.isLetter = true := by
      simpa [← split, shape] using begins
    obtain ⟨isWord, parts⟩ := keeps entry member letter
    have ended : after.head?.any Byte.isIdentifierPart = false := by
      simpa [SymbolEntry.accepts, isWord, SymbolEntry.endsWord, ← split] using accepted
    have nothing : after.takeWhile Byte.isIdentifierPart = [] := by
      cases after with
      | nil => rfl
      | cons other after => exact List.takeWhile_cons_of_neg (by simpa using ended)
    rw [← split, List.takeWhile_append_of_pos parts, nothing, List.append_nil]
  · intro whole
    have split := List.takeWhile_append_dropWhile (p := Byte.isIdentifierPart) (l := rest)
    have ended := List.head?_dropWhile_not Byte.isIdentifierPart rest
    rw [← whole] at split
    have behind : rest.drop entry.literal.length = rest.dropWhile Byte.isIdentifierPart := by
      nth_rewrite 1 [← split]
      exact List.drop_left
    have stands : entry.literal.isPrefixOf rest = true :=
      List.isPrefixOf_iff_prefix.mpr ⟨_, split⟩
    simp only [SymbolEntry.accepts, stands, SymbolEntry.endsWord, behind, Bool.true_and]
    cases found : (rest.dropWhile Byte.isIdentifierPart).head? with
    | none => simp
    | some byte => simpa [found] using Or.inr ended

/-- Where a word begins, the table matches the whole run of identifier characters or nothing. No
entry can stop within the run or reach beyond it. -/
theorem KeepsWords.match?_eq (keeps : table.KeepsWords)
    (begins : rest.head?.any Byte.isLetter = true) :
    table.match? rest =
      table.entries.find? (·.literal == rest.takeWhile Byte.isIdentifierPart) :=
  List.find?_congr fun _ member => keeps.accepts_eq begins member

end SymbolTable

namespace Scan

variable {rules : ScanRules}

def wordAt (source : Bytes) (offset : Nat) : Bytes :=
  (source.drop offset).takeWhile Byte.isIdentifierPart

/-- If the token starts at a letter, it takes a whole word and is what the table says of it. -/
def ReadsWord (rules : ScanRules) (source : Bytes) (token : Token Bytes) (stop : Nat) : Prop :=
  source[token.offset]?.any Byte.isLetter = true →
    stop = token.offset + (wordAt source token.offset).length ∧
      token.lexeme = rules.symbols.lexemeOf (wordAt source token.offset)

private theorem step_word (keeps : rules.symbols.KeepsWords) {here next : Place} {byte : UInt8}
    {rest : Bytes} {token : Token Bytes} (reads : here.rest = byte :: rest)
    (letter : Byte.isLetter byte = true) (taken : step rules here byte rest = .token token next) :
    next = here.skipWhile Byte.isIdentifierPart ∧ token.offset = here.offset ∧
      token.lexeme = rules.symbols.lexemeOf (here.rest.takeWhile Byte.isIdentifierPart) := by
  have begins : here.rest.head?.any Byte.isLetter = true := by simpa [reads] using letter
  have matched := keeps.match?_eq begins
  have moved := Place.over_skipWhile Byte.isIdentifierPart here
  unfold step at taken
  cases found : rules.symbols.match? here.rest with
  | some entry =>
      rw [found] at taken matched
      cases taken
      have member : entry ∈ rules.symbols.entries := List.mem_of_find?_eq_some matched.symm
      have whole : entry.literal = here.rest.takeWhile Byte.isIdentifierPart := by
        simpa using List.find?_some matched.symm
      refine ⟨?_, rfl, (SymbolTable.lexemeOf_eq_symbol member whole).symm⟩
      have stands : entry.literal <+: here.rest := ⟨_, whole ▸ moved.rest_eq.symm⟩
      rw [← whole] at moved
      exact (Place.over_advance stands).eq moved
  | none =>
      rw [found] at taken matched
      dsimp only at taken
      rw [if_pos letter] at taken
      cases taken
      have unknown := List.find?_eq_none.mp matched.symm
      refine ⟨rfl, rfl, (SymbolTable.lexemeOf_eq_identifier ?_).symm⟩
      simpa using unknown

/-- An identifier starts at a letter. -/
private theorem step_identifier {here next : Place} {byte : UInt8} {rest name : Bytes}
    {token : Token Bytes} (reads : here.rest = byte :: rest)
    (taken : step rules here byte rest = .token token next)
    (named : token.lexeme = .identifier name) : Byte.isLetter byte = true := by
  obtain ⟨text, -, moved, -, spelled⟩ := step_spells reads taken
  rw [named] at spelled
  cases spelled with
  | identifier letter =>
      have split := moved.rest_eq
      rw [reads, List.cons_append] at split
      cases split
      exact letter

/-- Every token that begins with a letter is the longest word there: an entry of the table if there
is one with these bytes, and an identifier otherwise. -/
theorem readsWords_of_yields (keeps : rules.symbols.KeepsWords) {source : Bytes} {place : Place}
    {tokens : List (Token Bytes)} {ending : ScanEnding} (derived : Yields rules place tokens ending)
    (completed : ending = .complete) (within : Place.Within source place) :
    List.Forall₂ (ReadsWord rules source) tokens (stopsFrom rules place) ∧
      ∀ token ∈ tokens, ∀ name, token.lexeme = .identifier name →
        ∀ entry ∈ rules.symbols.entries, entry.literal ≠ name := by
  induction derived with
  | complete ended =>
      rw [stopsFrom_ended ended]
      exact ⟨.nil, by simp⟩
  | failed => cases completed
  | @token place next byte rest token tokens ending reads taken _ ih =>
      obtain ⟨gap, moved, -⟩ := over_skipTrivia rules place
      obtain ⟨text, -, movedOn, offset, -⟩ := step_spells reads taken
      have here := within.over moved
      obtain ⟨words, names⟩ := ih completed (here.over movedOn)
      have word : wordAt source token.offset =
          (skipTrivia rules place).rest.takeWhile Byte.isIdentifierPart := by
        rw [wordAt, offset, ← here.rest_eq]
      rw [stopsFrom_token reads taken]
      refine ⟨.cons ?_ words, ?_⟩
      · intro letter
        rw [offset, ← List.head?_drop, ← here.rest_eq, reads] at letter
        obtain ⟨rfl, -, lexeme⟩ := step_word keeps reads letter taken
        refine ⟨?_, by rw [lexeme, word]⟩
        rw [word, offset]
        exact (Place.over_skipWhile Byte.isIdentifierPart _).offset_eq
      · intro other member name named
        rcases List.mem_cons.mp member with rfl | member
        · obtain ⟨-, -, lexeme⟩ := step_word keeps reads (step_identifier reads taken named) taken
          obtain ⟨rfl, unknown⟩ := SymbolTable.eq_of_lexemeOf_eq_identifier (lexeme.symm.trans named)
          exact unknown
        · exact names other member name named

end Scan

end LexKit
