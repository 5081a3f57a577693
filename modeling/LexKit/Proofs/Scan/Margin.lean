import LexKit.Proofs.Scan.Boundary
import LexKit.Proofs.Scan.Truncation
import LexKit.Proofs.Text.Decoding

/-!
# What stands in front of a failure

A scan moves over trivia and over lexemes. Where bytes are left behind them, these end in ASCII
bytes, whatever bytes that form no character they hold: a comment ends in front of a line feed, and
a string at a quote. So a failure never stands inside of something that could become a character.
-/

set_option autoImplicit false

namespace LexKit

open Utf8 (Clear)

theorem Trivia.clear {marker gap after : Bytes} (trivia : Trivia marker gap after)
    (more : after ≠ []) (solid : after.head?.any Byte.isWhitespace = false) : Clear gap := by
  induction trivia with
  | none => exact .nil
  | @blank byte gap after blank _ ih =>
      have first : Clear [byte] :=
        .of_ascii (by simpa using ByteClass.whitespace.ascii_of_accepts blank)
      exact first.append (ih more solid)
  | @comment body gap after _ stopped _ ih =>
      refine (ih more solid).append_of_ne ?_
      -- With nothing behind the comment, the next byte would be its line feed.
      rintro rfl
      obtain ⟨byte, rest, rfl⟩ := List.exists_cons_of_ne_nil more
      rw [stopped byte rfl] at solid
      cases solid

theorem UnsignedNumeral.ascii {text : Bytes} (numeral : UnsignedNumeral text) :
    ∀ byte ∈ text, byte < 0x80 := by
  have digit {byte : UInt8} (accepted : Byte.isDigit byte = true) : byte < 0x80 :=
    ByteClass.digit.ascii_of_accepts accepted
  cases numeral with
  | whole _ digits => exact fun byte member => digit (digits byte member)
  | pointed _ digits fraction =>
      intro byte member
      rcases List.mem_append.mp member with whole | part
      · exact digit (digits byte whole)
      · rcases List.mem_cons.mp part with rfl | part
        · decide
        · exact digit (fraction byte part)

/-- A token with something behind it ends in an ASCII byte, so decoding can stop behind it and begin
there again. -/
theorem Spells.clear {rules : ScanRules} {lexeme : Lexeme Bytes} {text after : Bytes}
    (symbols : ∀ entry ∈ rules.symbols.entries, Clear entry.literal)
    (spelled : Spells rules lexeme text after) (more : after ≠ []) : Clear text := by
  cases spelled with
  | symbol member => exact symbols _ member
  | @identifier first part _ letter parts =>
      refine .of_ascii ?_
      intro byte member
      rcases List.mem_cons.mp member with rfl | member
      · exact ByteClass.letter.ascii_of_accepts letter
      · exact ByteClass.identifierPart.ascii_of_accepts (parts byte member)
  | string =>
      have closing : Clear [Byte.quote] := .of_ascii (by decide +kernel)
      exact closing.append_of_ne (List.cons_ne_nil _ _)
  | openString => exact absurd rfl more
  | number numeral => exact .of_ascii numeral.ascii

namespace Scan

variable {rules : ScanRules} {source : Bytes}

theorem take_over {place next : Place} {text : Bytes} (within : place.Within source)
    (moved : place.Over text next) :
    source.take next.offset = source.take place.offset ++ text := by
  rw [moved.offset_eq, List.take_add, ← within.rest_eq, moved.rest_eq, List.take_left]

private theorem clear_skipTrivia {place : Place} (within : place.Within source)
    (clear : Clear (source.take place.offset)) (more : (skipTrivia rules place).rest ≠ []) :
    Clear (source.take (skipTrivia rules place).offset) := by
  obtain ⟨gap, moved, trivia⟩ := over_skipTrivia rules place
  rw [take_over within moved]
  exact clear.append (trivia.clear more (not_blank_skipTrivia rules place))

/-- Where a scan looks for a token in front of further bytes, it stands behind an ASCII byte. -/
theorem TokenStart.clear (symbols : ∀ entry ∈ rules.symbols.entries, Clear entry.literal)
    {here : Place} (started : TokenStart rules (Place.start source) here) (more : here.rest ≠ []) :
    here.Within source ∧ Clear (source.take here.offset) := by
  induction started with
  | first =>
      obtain ⟨gap, moved, -⟩ := over_skipTrivia rules (Place.start source)
      have within := Place.Within.start source
      exact ⟨within.over moved, clear_skipTrivia within .nil more⟩
  | @next here following byte rest token started reads taken ih =>
      obtain ⟨within, clear⟩ := ih (by simp [reads])
      obtain ⟨text, -, moved, -, spelled⟩ := step_spells reads taken
      obtain ⟨gap, movedOn, -⟩ := over_skipTrivia rules following
      have behind := within.over moved
      have left : following.rest ≠ [] := fun ended => more (skipTrivia_end ended)
      have clearBehind : Clear (source.take following.offset) := by
        rw [take_over within moved]
        exact clear.append (spelled.clear symbols left)
      exact ⟨behind.over movedOn, clear_skipTrivia behind clearBehind more⟩

private theorem Breaks.rest_ne {here : Place} {offset : Nat} {problem : ScanProblem}
    (breaks : Breaks rules here offset problem) : here.rest ≠ [] := by
  intro ended
  cases breaks with
  | unexpected unexpected =>
      have reads := unexpected.reads
      rw [ended] at reads
      cases reads
  | secondPoint _ _ _ _ split =>
      rw [ended] at split
      simp at split
  | unterminated _ _ reads =>
      rw [ended] at reads
      cases reads

private theorem Breaks.margin {here : Place} {offset : Nat} {problem : ScanProblem}
    (breaks : Breaks rules here offset problem) (within : here.Within source)
    (clear : Clear (source.take here.offset)) :
    (∃ byte, source[offset]? = some byte ∧ Byte.isWhitespace byte = false) ∧
      Clear (source.take offset) := by
  have stands {byte : UInt8} {rest : Bytes} {place : Place} (inside : place.Within source)
      (reads : place.rest = byte :: rest) : source[place.offset]? = some byte := by
    rw [← List.head?_drop, ← inside.rest_eq, reads, List.head?_cons]
  cases breaks with
  | @unexpected byte unexpected =>
      obtain ⟨rest, reads⟩ := List.head?_eq_some_iff.mp unexpected.reads
      exact ⟨⟨byte, stands within reads, unexpected.not_blank⟩, clear⟩
  | @secondPoint digits fraction rest nonempty digit behind _ split =>
      have moved : Place.Over here (digits ++ Byte.point :: fraction)
          ⟨here.offset + (digits ++ Byte.point :: fraction).length, Byte.point :: rest⟩ :=
        ⟨split, rfl⟩
      refine ⟨⟨Byte.point, stands (within.over moved) rfl, rfl⟩, ?_⟩
      rw [take_over within moved]
      exact clear.append (.of_ascii (UnsignedNumeral.pointed nonempty digit behind).ascii)
  | unterminated _ _ reads => exact ⟨⟨Byte.quote, stands within reads, rfl⟩, clear⟩

/-- A scan fails at a byte that is no whitespace, and behind an ASCII byte or at the start. -/
theorem margin_of_run (symbols : ∀ entry ∈ rules.symbols.entries, Clear entry.literal)
    {offset : Nat} {problem : ScanProblem}
    (failed : (run rules source).ending = .failed offset problem) :
    (∃ byte, source[offset]? = some byte ∧ Byte.isWhitespace byte = false) ∧
      Clear (source.take offset) := by
  have derived := yields_runFrom rules (Place.start source)
  obtain ⟨here, started, within, breaks⟩ := derived.breaks failed .first (.start source)
  obtain ⟨-, clear⟩ := started.clear symbols breaks.rest_ne
  exact breaks.margin within clear

end Scan

end LexKit
