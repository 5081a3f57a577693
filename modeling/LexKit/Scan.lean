import LexKit.Number
import LexKit.Source.Report
import LexKit.Symbol.Table

/-!
# Scanning

A scan splits a source into tokens. It skips whitespace and line comments and then applies the first
rule that fits: a symbol of the table, an identifier, a string, a number. It ends at the end of the
source or at the first byte where no rule fits.

The scan works on *places*: an offset together with the bytes from there on.
-/

set_option autoImplicit false

namespace LexKit

/-- The options of a scan. The comment marker is not empty. -/
structure ScanRules where
  marker : String
  strictStrings : Bool
  symbols : SymbolTable
  marker_ne : Utf8.encode marker ≠ []

namespace ScanRules

def markerBytes (rules : ScanRules) : Bytes :=
  Utf8.encode rules.marker

/-- Rules with the given marker, or `none` if the marker is empty. -/
def ofMarker? (marker : String) (strictStrings : Bool) (symbols : SymbolTable) : Option ScanRules :=
  if nonempty : Utf8.encode marker ≠ [] then some ⟨marker, strictStrings, symbols, nonempty⟩
  else none

def emptyMarkerMessage : String :=
  "comment marker must not be empty"

/-- Two slashes begin a comment, a string may lack its closing quote, and the symbols are the
default ones. -/
def default : ScanRules :=
  ⟨"//", false, SymbolTable.default, by decide⟩

end ScanRules

inductive ScanProblem where
  | unexpected (byte : UInt8)
  | secondPoint
  | malformedNumber
  | unterminatedString
deriving DecidableEq, Repr

namespace ScanProblem

/-- A visible ASCII character is shown quoted, any other byte by its code. -/
def describeByte (byte : UInt8) : String :=
  if 0x20 ≤ byte ∧ byte < 0x7F then Text.quote (String.singleton (Char.ofNat byte.toNat))
  else "byte 0x" ++ String.ofList (Text.hexDigits 2 byte.toNat)

def message : ScanProblem → String
  | .unexpected byte => "unexpected character " ++ describeByte byte
  | .secondPoint => "second decimal point in numeric literal"
  | .malformedNumber => "malformed numeric literal"
  | .unterminatedString => "unterminated string literal"

end ScanProblem

/-- A place in a source: the number of bytes before it and the bytes from there on. -/
structure Place where
  offset : Nat
  rest : Bytes
deriving DecidableEq, Repr

namespace Place

def start (source : Bytes) : Place :=
  ⟨0, source⟩

/-- Moves over `count` bytes that are known to be there. -/
def advance (place : Place) (count : Nat) : Place :=
  ⟨place.offset + count, place.rest.drop count⟩

/-- Moves over the longest run of bytes that `accepts` holds of. -/
def skipFrom (accepts : UInt8 → Bool) (offset : Nat) : Bytes → Place
  | [] => ⟨offset, []⟩
  | byte :: rest =>
      if accepts byte then skipFrom accepts (offset + 1) rest else ⟨offset, byte :: rest⟩

def skipWhile (accepts : UInt8 → Bool) (place : Place) : Place :=
  skipFrom accepts place.offset place.rest

theorem skipFrom_rest (accepts : UInt8 → Bool) (offset : Nat) (rest : Bytes) :
    (skipFrom accepts offset rest).rest = rest.dropWhile accepts := by
  induction rest generalizing offset with
  | nil => rfl
  | cons byte rest ih =>
      unfold skipFrom
      by_cases accepted : accepts byte
      · simp [accepted, ih]
      · simp [accepted]

@[simp]
theorem skipWhile_rest (accepts : UInt8 → Bool) (place : Place) :
    (place.skipWhile accepts).rest = place.rest.dropWhile accepts :=
  skipFrom_rest accepts place.offset place.rest

theorem skipWhile_length_le (accepts : UInt8 → Bool) (place : Place) :
    (place.skipWhile accepts).rest.length ≤ place.rest.length := by
  rw [skipWhile_rest]
  exact (List.dropWhile_sublist accepts).length_le

theorem skipWhile_length_lt (accepts : UInt8 → Bool) (place : Place)
    (accepted : place.rest.head?.any accepts = true) :
    (place.skipWhile accepts).rest.length < place.rest.length := by
  rw [skipWhile_rest]
  cases split : place.rest with
  | nil => simp [split] at accepted
  | cons byte rest =>
      simp only [split, List.head?_cons, Option.any_some] at accepted
      have shorter := (List.dropWhile_sublist accepts (l := rest)).length_le
      simp only [List.dropWhile_cons, accepted, ↓reduceIte, List.length_cons]
      omega

def skipWhitespace (place : Place) : Place :=
  place.skipWhile Byte.isWhitespace

def skipToLineEnd (place : Place) : Place :=
  place.skipWhile (· != Byte.lineFeed)

end Place

inductive ScanStep where
  | token (token : Token Bytes) (next : Place)
  | failed (offset : Nat) (problem : ScanProblem)
deriving Repr

inductive ScanEnding where
  | complete
  | failed (offset : Nat) (problem : ScanProblem)
deriving DecidableEq, Repr

structure Scan where
  tokens : List (Token Bytes)
  ending : ScanEnding
deriving Repr

namespace Scan

/-- Moves over a comment marker and the rest of its line, up to the line feed. -/
def skipComment (rules : ScanRules) (place : Place) : Place :=
  (place.advance rules.markerBytes.length).skipToLineEnd

theorem skipComment_length_lt (rules : ScanRules) (place : Place)
    (commented : rules.markerBytes.isPrefixOf place.rest = true) :
    (skipComment rules place).rest.length < place.rest.length := by
  have positive : 0 < rules.markerBytes.length := List.length_pos_iff.mpr rules.marker_ne
  have fits : rules.markerBytes.length ≤ place.rest.length :=
    (List.isPrefixOf_iff_prefix.mp commented).length_le
  have shorter := Place.skipWhile_length_le (· != Byte.lineFeed)
    (place.advance rules.markerBytes.length)
  simp only [Place.advance, List.length_drop] at shorter
  simp only [skipComment, Place.skipToLineEnd, Place.advance]
  omega

/-- Moves over any mix of comments and whitespace. -/
def skipTrivia (rules : ScanRules) (place : Place) : Place :=
  if rules.markerBytes.isPrefixOf place.rest then skipTrivia rules (skipComment rules place)
  else if place.rest.head?.any Byte.isWhitespace then skipTrivia rules place.skipWhitespace
  else place
termination_by place.rest.length
decreasing_by
  · exact skipComment_length_lt rules place ‹_›
  · exact Place.skipWhile_length_lt Byte.isWhitespace place ‹_›

theorem skipTrivia_length_le (rules : ScanRules) (place : Place) :
    (skipTrivia rules place).rest.length ≤ place.rest.length := by
  fun_induction skipTrivia rules place with
  | case1 place commented ih =>
      exact Nat.le_trans ih (Nat.le_of_lt (skipComment_length_lt rules place commented))
  | case2 place _ blank ih =>
      exact Nat.le_trans ih (Nat.le_of_lt (Place.skipWhile_length_lt Byte.isWhitespace place blank))
  | case3 => exact Nat.le_refl _

/-- An identifier: a letter and the identifier characters after it. -/
def identifier (place : Place) : ScanStep :=
  .token ⟨.identifier (place.rest.takeWhile Byte.isIdentifierPart), place.offset⟩
    (place.skipWhile Byte.isIdentifierPart)

/-- A string that opens at `offset` and whose content begins right after. Its text runs to the
closing quote; without one it runs to the end of the source, unless strictness forbids that. -/
def string (strictStrings : Bool) (offset : Nat) (content : Bytes) : ScanStep :=
  let text := content.takeWhile (· != Byte.quote)
  match content.dropWhile (· != Byte.quote) with
  | [] =>
      if strictStrings then .failed offset .unterminatedString
      else .token ⟨.string text, offset⟩ ⟨offset + 1 + text.length, []⟩
  | _ :: after => .token ⟨.string text, offset⟩ ⟨offset + 1 + text.length + 1, after⟩

/-- The token of a numeral that begins at `offset` and is followed by `next`. -/
def numeral (offset : Nat) (lexeme : Bytes) (next : Place) : ScanStep :=
  match Number.parseFloat? (Utf8.decodeAscii lexeme) with
  | some value => .token ⟨.number value, offset⟩ next
  | none => .failed offset .malformedNumber

/-- A number: digits, and after a point more digits. A second point is a failure where it stands. -/
def number (place : Place) : ScanStep :=
  let whole := place.rest.takeWhile Byte.isDigit
  let afterWhole := place.skipWhile Byte.isDigit
  match afterWhole.rest with
  | [] => numeral place.offset whole afterWhole
  | byte :: rest =>
      if byte == Byte.point then
        let fraction := rest.takeWhile Byte.isDigit
        let afterFraction := Place.skipFrom Byte.isDigit (afterWhole.offset + 1) rest
        if afterFraction.rest.head? = some Byte.point then .failed afterFraction.offset .secondPoint
        else numeral place.offset (whole ++ byte :: fraction) afterFraction
      else
        numeral place.offset whole afterWhole

/-- Scans one token at a place that holds the byte `byte` and then `rest`. -/
def step (rules : ScanRules) (place : Place) (byte : UInt8) (rest : Bytes) : ScanStep :=
  match rules.symbols.match? place.rest with
  | some entry => .token ⟨.symbol entry.kind, place.offset⟩ (place.advance entry.literal.length)
  | none =>
      if Byte.isLetter byte then identifier place
      else if byte == Byte.quote then string rules.strictStrings place.offset rest
      else if Byte.isDigit byte then number place
      else .failed place.offset (.unexpected byte)

theorem string_length_lt {strictStrings : Bool} {offset : Nat} {content : Bytes}
    {token : Token Bytes} {next : Place}
    (taken : string strictStrings offset content = .token token next) :
    next.rest.length ≤ content.length := by
  have shorter := (List.dropWhile_sublist (· != Byte.quote) (l := content)).length_le
  unfold string at taken
  split at taken
  · split at taken
    · exact absurd taken (by simp)
    · obtain ⟨_, rfl⟩ := ScanStep.token.inj taken
      exact Nat.zero_le _
  · rename_i split
    obtain ⟨_, rfl⟩ := ScanStep.token.inj taken
    simp only [split, List.length_cons] at shorter
    exact Nat.le_of_succ_le shorter

theorem numeral_next {offset : Nat} {lexeme : Bytes} {following next : Place} {token : Token Bytes}
    (taken : numeral offset lexeme following = .token token next) : next = following := by
  unfold numeral at taken
  split at taken
  · exact (ScanStep.token.inj taken).2.symm
  · exact absurd taken (by simp)

theorem number_length_le {place next : Place} {token : Token Bytes}
    (taken : number place = .token token next) :
    next.rest.length ≤ (place.skipWhile Byte.isDigit).rest.length := by
  unfold number at taken
  dsimp only at taken
  split at taken
  · exact Nat.le_of_eq (by rw [numeral_next taken])
  · rename_i split
    split at taken
    · split at taken
      · exact absurd taken (by simp)
      · rw [numeral_next taken, Place.skipFrom_rest, split]
        exact Nat.le_succ_of_le (List.dropWhile_sublist Byte.isDigit).length_le
    · exact Nat.le_of_eq (by rw [numeral_next taken])

/-- Every token takes at least one byte. -/
theorem step_length_lt {rules : ScanRules} {place next : Place} {byte : UInt8} {rest : Bytes}
    {token : Token Bytes} (split : place.rest = byte :: rest)
    (taken : step rules place byte rest = .token token next) :
    next.rest.length < place.rest.length := by
  unfold step at taken
  split at taken
  · rename_i entry found
    obtain ⟨_, rfl⟩ := ScanStep.token.inj taken
    have positive : 0 < entry.literal.length :=
      List.length_pos_iff.mpr (rules.symbols.nonempty entry (List.mem_of_find?_eq_some found))
    simp only [Place.advance, List.length_drop, split, List.length_cons]
    omega
  · split at taken
    · rename_i letter
      obtain ⟨_, rfl⟩ := ScanStep.token.inj taken
      exact Place.skipWhile_length_lt _ _ (by simp [split, Byte.isIdentifierPart, letter])
    · split at taken
      · have shorter := string_length_lt taken
        rw [split, List.length_cons]
        omega
      · split at taken
        · rename_i digit
          exact Nat.lt_of_le_of_lt (number_length_le taken)
            (Place.skipWhile_length_lt _ _ (by simp [split, digit]))
        · exact absurd taken (by simp)

/-- Scans from a place on, behind the tokens `done` (the last one first). -/
def runFrom (rules : ScanRules) (done : List (Token Bytes)) (place : Place) : Scan :=
  let here := skipTrivia rules place
  match _split : here.rest with
  | [] => ⟨done.reverse, .complete⟩
  | byte :: rest =>
      match _taken : step rules here byte rest with
      | .failed offset problem => ⟨done.reverse, .failed offset problem⟩
      | .token token next => runFrom rules (token :: done) next
termination_by place.rest.length
decreasing_by
  exact Nat.lt_of_lt_of_le (step_length_lt ‹_› ‹_›) (skipTrivia_length_le rules place)

def run (rules : ScanRules) (source : Bytes) : Scan :=
  runFrom rules [] (Place.start source)

/-- Tokens found earlier stand in front of those found from a place on. -/
theorem runFrom_done (rules : ScanRules) (done : List (Token Bytes)) (place : Place) :
    runFrom rules done place =
      ⟨done.reverse ++ (runFrom rules [] place).tokens, (runFrom rules [] place).ending⟩ := by
  rw [runFrom, runFrom.eq_def rules [] place]
  dsimp only
  split
  · simp
  · rename_i byte rest split
    split
    · simp
    · rename_i token next taken
      rw [runFrom_done rules (token :: done) next, runFrom_done rules [token] next]
      simp
termination_by place.rest.length
decreasing_by
  all_goals exact Nat.lt_of_lt_of_le (step_length_lt ‹_› ‹_›) (skipTrivia_length_le rules place)

end Scan

end LexKit
