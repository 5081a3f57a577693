import LexKit.Proofs.Scan.Failure
import LexKit.Proofs.Scan.Tiling
import LexKit.Proofs.Symbol.Arrangement
import LexKit.Proofs.Text.Encoding

/-!
# Characters under the scan

A scan reads bytes. If its source, its marker and the literals of its table are encoded text, it
moves over whole characters: each piece of trivia and each lexeme is text, because it is made of
such bytes, or of ASCII bytes, or reaches up to one.
-/

set_option autoImplicit false

namespace LexKit

open Utf8 (IsText)

private theorem accepts_ascii : ∀ byteClass ∈ ByteClass.all, ∀ code < 256,
    byteClass.accepts (UInt8.ofNat code) = true → UInt8.ofNat code < 0x80 := by
  decide +kernel

theorem ByteClass.ascii_of_accepts (byteClass : ByteClass) {byte : UInt8}
    (accepted : byteClass.accepts byte = true) : byte < 0x80 := by
  have member : byteClass ∈ ByteClass.all := by cases byteClass <;> decide
  have small := accepts_ascii byteClass member byte.toNat byte.toNat_lt
  rw [UInt8.ofNat_toNat] at small
  exact small accepted

private theorem isText_of_class (byteClass : ByteClass) {run : Bytes}
    (accepted : ∀ byte ∈ run, byteClass.accepts byte = true) : IsText run :=
  IsText.of_ascii fun byte member => byteClass.ascii_of_accepts (accepted byte member)

private theorem isText_quote : IsText [Byte.quote] :=
  ⟨"\"", rfl⟩

private theorem isText_point : IsText [Byte.point] :=
  ⟨".", rfl⟩

private theorem isText_pointed {digits fraction : Bytes}
    (digit : ∀ byte ∈ digits, Byte.isDigit byte = true)
    (behind : ∀ byte ∈ fraction, Byte.isDigit byte = true) :
    IsText (digits ++ Byte.point :: fraction) :=
  (isText_of_class .digit digit).append (isText_point.append (isText_of_class .digit behind))

/-- Comments and whitespace consist of whole characters. A comment ends in front of a line feed or
at the end, and neither lies within a character. -/
theorem Trivia.isText {marker gap after : Bytes} (marked : IsText marker)
    (trivia : Trivia marker gap after) (whole : IsText (gap ++ after)) : IsText gap := by
  induction trivia with
  | none => exact .nil
  | @blank byte gap after blank _ ih =>
      have first : IsText [byte] :=
        IsText.of_ascii (by simpa using ByteClass.whitespace.ascii_of_accepts blank)
      have behind : IsText ([byte] ++ (gap ++ after)) := whole
      exact first.append (ih (behind.behind first))
  | @comment body gap after _ stopped _ ih =>
      rw [List.append_assoc, List.append_assoc] at whole
      have unmarked := whole.behind marked
      -- What follows the body begins with a line feed, or there is nothing.
      have commented : IsText body := by
        cases behind : gap ++ after with
        | nil => rwa [behind, List.append_nil] at unmarked
        | cons byte rest =>
            have feed := stopped byte (by rw [behind]; rfl)
            rw [behind, feed] at unmarked
            exact (unmarked.split_at (by decide)).1
      exact (marked.append commented).append (ih (unmarked.behind commented))

theorem UnsignedNumeral.isText {text : Bytes} (numeral : UnsignedNumeral text) : IsText text := by
  cases numeral with
  | whole _ digits => exact isText_of_class .digit digits
  | pointed _ digits fraction => exact isText_pointed digits fraction

/-- A lexeme is text, and so is what it carries. -/
theorem Spells.isText {rules : ScanRules} {lexeme : Lexeme Bytes} {text after : Bytes}
    (symbols : ∀ entry ∈ rules.symbols.entries, IsText entry.literal)
    (spelled : Spells rules lexeme text after) (whole : IsText (text ++ after)) :
    IsText text ∧ ∀ payload, lexeme.payload? = some payload → IsText payload := by
  cases spelled with
  | symbol member => exact ⟨symbols _ member, by simp [Lexeme.payload?]⟩
  | @identifier first part _ letter parts =>
      have word : IsText (first :: part) := by
        refine isText_of_class .identifierPart ?_
        intro byte member
        rcases List.mem_cons.mp member with rfl | member
        · simp [ByteClass.accepts, Byte.isIdentifierPart, letter]
        · exact parts byte member
      exact ⟨word, by simpa [Lexeme.payload?] using word⟩
  | @string text after _ =>
      rw [List.append_assoc, List.cons_append] at whole
      have content := (whole.behind isText_quote).split_at (by decide)
      refine ⟨isText_quote.append (content.1.append isText_quote), ?_⟩
      simpa [Lexeme.payload?] using content.1
  | @openString text _ _ =>
      rw [List.append_nil] at whole
      exact ⟨whole, by simpa [Lexeme.payload?] using whole.behind isText_quote⟩
  | number numeral => exact ⟨numeral.isText, by simp [Lexeme.payload?]⟩

namespace Place

/-- The place stands between two characters of the text, or at one of its ends. -/
def Between (text : String) (place : Place) : Prop :=
  ∃ front back, text = front ++ back ∧ place = ⟨(Utf8.encode front).length, Utf8.encode back⟩

variable {text : String} {place next : Place}

theorem Between.start (text : String) : Between text (start (Utf8.encode text)) :=
  ⟨"", text, by simp, rfl⟩

theorem Between.boundary (between : Between text place) : Utf8.Boundary text place.offset := by
  obtain ⟨front, back, split, rfl⟩ := between
  exact ⟨front, back, split, rfl⟩

theorem Between.isText (between : Between text place) : IsText place.rest := by
  obtain ⟨front, back, -, rfl⟩ := between
  exact ⟨back, rfl⟩

/-- Moving over whole characters leads from one place between characters to another. -/
theorem Between.over {read : Bytes} (between : Between text place) (moved : Over place read next)
    (isText : IsText read) : Between text next := by
  have whole := between.isText
  rw [moved.rest_eq] at whole
  obtain ⟨back, encoded⟩ := whole.behind isText
  obtain ⟨middle, rfl⟩ := isText
  obtain ⟨front, rest, rfl, rfl⟩ := between
  have split : rest = middle ++ back := by
    apply Utf8.encode_injective
    rw [Utf8.encode_append, encoded]
    exact moved.rest_eq
  refine ⟨front ++ middle, back, by rw [split, String.append_assoc], ?_⟩
  obtain ⟨offset, after⟩ := next
  have length := moved.offset_eq
  simp only at length encoded
  rw [length, encoded, Utf8.encode_append, List.length_append]

/-- A byte that is read between two characters is the first one of a character. -/
theorem Between.at_char {byte : UInt8} {after : Bytes} (between : Between text place)
    (reads : place.rest = byte :: after) :
    ∃ front char back, text = front ++ String.singleton char ++ back ∧
      place.offset = (Utf8.encode front).length ∧
      (String.utf8EncodeChar char).head? = some byte := by
  obtain ⟨front, rest, rfl, rfl⟩ := between
  obtain ⟨char, back, rfl, first⟩ := Utf8.exists_char_of_encode reads
  exact ⟨front, char, back, (String.append_assoc ..).symm, rfl, first⟩

end Place

theorem SymbolTable.isText_of_ofPairs {pairs : List (String × TokenKind)} {table : SymbolTable}
    (made : ofPairs pairs = .ok table) : ∀ entry ∈ table.entries, IsText entry.literal := by
  intro entry member
  obtain ⟨⟨literal, kind⟩, -, rfl⟩ := mem_of_ofPairs made member
  exact ⟨literal, rfl⟩

namespace Scan

variable {rules : ScanRules} {text : String}

theorem between_skipTrivia {place : Place} (between : place.Between text) :
    (skipTrivia rules place).Between text := by
  obtain ⟨gap, moved, trivia⟩ := over_skipTrivia rules place
  have whole := between.isText
  rw [moved.rest_eq] at whole
  exact between.over moved (trivia.isText ⟨rules.marker, rfl⟩ whole)

/-- The token begins between two characters, and what it carries can be decoded. -/
def Respects (text : String) (token : Token Bytes) : Prop :=
  Utf8.Boundary text token.offset ∧ ∀ payload, token.payload? = some payload →
    ∃ content, Utf8.decode? payload = some content ∧ Utf8.encode content = payload

theorem between_step (symbols : ∀ entry ∈ rules.symbols.entries, IsText entry.literal)
    {here next : Place} {byte : UInt8} {rest : Bytes} {token : Token Bytes}
    (between : here.Between text) (reads : here.rest = byte :: rest)
    (taken : step rules here byte rest = .token token next) :
    Respects text token ∧ next.Between text := by
  obtain ⟨read, -, moved, offset, spelled⟩ := step_spells reads taken
  have whole := between.isText
  rw [moved.rest_eq] at whole
  obtain ⟨isText, carried⟩ := spelled.isText symbols whole
  refine ⟨⟨offset ▸ between.boundary, ?_⟩, between.over moved isText⟩
  intro payload holds
  obtain ⟨content, rfl⟩ := carried payload holds
  exact ⟨content, Utf8.decode?_encode content, rfl⟩

theorem respects_of_yields (symbols : ∀ entry ∈ rules.symbols.entries, IsText entry.literal)
    {place : Place} {tokens : List (Token Bytes)} {ending : ScanEnding}
    (derived : Yields rules place tokens ending) (between : place.Between text) :
    (∀ token ∈ tokens, Respects text token) ∧
      ∀ stop ∈ stopsFrom rules place, Utf8.Boundary text stop := by
  induction derived with
  | complete ended => simp [stopsFrom_ended ended]
  | failed reads broken => simp [stopsFrom_failed reads broken]
  | token reads taken _ ih =>
      obtain ⟨respects, behind⟩ := between_step symbols (between_skipTrivia between) reads taken
      obtain ⟨tokens, stops⟩ := ih behind
      rw [stopsFrom_token reads taken]
      exact ⟨List.forall_mem_cons.mpr ⟨respects, tokens⟩,
        List.forall_mem_cons.mpr ⟨behind.boundary, stops⟩⟩

end Scan

def ScanProblem.About (char : Char) : ScanProblem → Prop
  | .unexpected byte => (String.utf8EncodeChar char).head? = some byte
  | .secondPoint => char = '.'
  | .malformedNumber => False
  | .unterminatedString => char = '"'

namespace Scan

variable {rules : ScanRules} {text : String}

theorem Breaks.at_char {here : Place} {offset : Nat} {problem : ScanProblem}
    (breaks : Breaks rules here offset problem) (between : here.Between text) :
    ∃ front char back, text = front ++ String.singleton char ++ back ∧
      offset = (Utf8.encode front).length ∧ problem.About char := by
  cases breaks with
  | unexpected unexpected =>
      obtain ⟨rest, reads⟩ := List.head?_eq_some_iff.mp unexpected.reads
      exact between.at_char reads
  | @secondPoint digits fraction rest _ digit behind _ split =>
      have moved : Place.Over here (digits ++ Byte.point :: fraction)
          ⟨here.offset + (digits ++ Byte.point :: fraction).length, Byte.point :: rest⟩ :=
        ⟨split, rfl⟩
      have point := between.over moved (isText_pointed digit behind)
      obtain ⟨front, char, back, whole, offset, first⟩ := point.at_char rfl
      exact ⟨front, char, back, whole, offset, Utf8.char_of_head (by decide) first⟩
  | unterminated _ _ reads =>
      obtain ⟨front, char, back, whole, offset, first⟩ := between.at_char reads
      exact ⟨front, char, back, whole, offset, Utf8.char_of_head (by decide) first⟩

theorem breaks_of_yields (symbols : ∀ entry ∈ rules.symbols.entries, IsText entry.literal)
    {place : Place} {tokens : List (Token Bytes)} {ending : ScanEnding} {offset : Nat}
    {problem : ScanProblem} (derived : Yields rules place tokens ending)
    (failed : ending = .failed offset problem) (between : place.Between text) :
    ∃ front char back, text = front ++ String.singleton char ++ back ∧
      offset = (Utf8.encode front).length ∧ problem.About char := by
  induction derived with
  | complete => cases failed
  | failed reads broken =>
      cases failed
      exact (breaks_of_step reads broken).at_char (between_skipTrivia between)
  | token reads taken _ ih =>
      obtain ⟨-, behind⟩ := between_step symbols (between_skipTrivia between) reads taken
      exact ih failed behind

end Scan

end LexKit
