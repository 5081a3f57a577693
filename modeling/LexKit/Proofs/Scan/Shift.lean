import LexKit.Proofs.Scan.Lexeme

/-!
# Sources with more in front

A scan does not look back. From a place on it gives the same tokens whatever stands in front of the
place, at offsets that differ by the number of bytes there.
-/

set_option autoImplicit false

namespace LexKit

namespace Token

variable {Payload : Type}

def shift (count : Nat) (token : Token Payload) : Token Payload :=
  { token with offset := token.offset + count }

@[simp]
theorem lexeme_shift (count : Nat) (token : Token Payload) :
    (token.shift count).lexeme = token.lexeme :=
  rfl

end Token

def ScanEnding.shift (count : Nat) : ScanEnding → ScanEnding
  | .complete => .complete
  | .failed offset problem => .failed (offset + count) problem

namespace Place

def shift (count : Nat) (place : Place) : Place :=
  ⟨place.offset + count, place.rest⟩

theorem skipFrom_shift (accepts : UInt8 → Bool) (count offset : Nat) (rest : Bytes) :
    skipFrom accepts (offset + count) rest = (skipFrom accepts offset rest).shift count := by
  induction rest generalizing offset with
  | nil => rfl
  | cons byte rest ih =>
      unfold skipFrom
      cases accepts byte with
      | false => rfl
      | true => simpa [Nat.add_right_comm] using ih (offset + 1)

theorem skipWhile_shift (accepts : UInt8 → Bool) (count : Nat) (place : Place) :
    (place.shift count).skipWhile accepts = (place.skipWhile accepts).shift count :=
  skipFrom_shift accepts count place.offset place.rest

theorem advance_shift (length count : Nat) (place : Place) :
    (place.shift count).advance length = (place.advance length).shift count := by
  simp only [advance, shift, Nat.add_right_comm]

end Place

def ScanStep.shift (count : Nat) : ScanStep → ScanStep
  | .token found next => .token (found.shift count) (next.shift count)
  | .failed offset problem => .failed (offset + count) problem

namespace Scan

variable {rules : ScanRules}

theorem skipTrivia_shift (count : Nat) (place : Place) :
    skipTrivia rules (place.shift count) = (skipTrivia rules place).shift count := by
  fun_induction skipTrivia rules place with
  | case1 place commented ih =>
      have skipped : skipComment rules (place.shift count) =
          (skipComment rules place).shift count := by
        rw [skipComment, Place.advance_shift]
        exact Place.skipWhile_shift _ count _
      rw [skipTrivia, if_pos (by exact commented), skipped]
      exact ih
  | case2 place plain blank ih =>
      rw [skipTrivia, if_neg (by exact plain), if_pos (by exact blank), Place.skipWhitespace,
        Place.skipWhile_shift]
      exact ih
  | case3 place plain solid =>
      rw [skipTrivia, if_neg (by exact plain), if_neg (by exact solid)]

private theorem numeral_shift (count offset : Nat) (text : Bytes) (next : Place) :
    numeral (offset + count) text (next.shift count) = (numeral offset text next).shift count := by
  unfold numeral
  cases Number.parseFloat? (Utf8.decodeAscii text) with
  | none => rfl
  | some value => rfl

private theorem number_shift (count : Nat) (place : Place) :
    number (place.shift count) = (number place).shift count := by
  have whole := Place.skipWhile_shift Byte.isDigit count place
  by_cases unpointed : (place.skipWhile Byte.isDigit).rest.head? = some Byte.point
  · obtain ⟨rest, pointed⟩ := List.head?_eq_some_iff.mp unpointed
    have pointedOn : ((place.shift count).skipWhile Byte.isDigit).rest = Byte.point :: rest := by
      rw [whole]
      exact pointed
    have fraction : Place.skipFrom Byte.isDigit
        (((place.shift count).skipWhile Byte.isDigit).offset + 1) rest =
          (Place.skipFrom Byte.isDigit
            ((place.skipWhile Byte.isDigit).offset + 1) rest).shift count := by
      rw [whole, ← Place.skipFrom_shift, Place.shift, Nat.add_right_comm]
    rw [number_eq_of_pointed pointed, number_eq_of_pointed pointedOn, fraction]
    dsimp only
    split
    · rename_i second
      rw [if_pos (by exact second)]
      rfl
    · rename_i single
      rw [if_neg (by exact single)]
      exact numeral_shift count _ _ _
  · have unpointedOn :
        ((place.shift count).skipWhile Byte.isDigit).rest.head? ≠ some Byte.point := by
      rw [whole]
      exact unpointed
    rw [number_eq_of_unpointed unpointed, number_eq_of_unpointed unpointedOn, whole]
    exact numeral_shift count _ _ _

private theorem string_shift (strictStrings : Bool) (count offset : Nat) (content : Bytes) :
    string strictStrings (offset + count) content =
      (string strictStrings offset content).shift count := by
  unfold string
  cases content.dropWhile (· != Byte.quote) with
  | nil =>
      cases strictStrings with
      | true => rfl
      | false => simp [ScanStep.shift, Token.shift, Place.shift, Nat.add_right_comm]
  | cons closing after =>
      simp [ScanStep.shift, Token.shift, Place.shift, Nat.add_right_comm]

theorem step_shift (count : Nat) (place : Place) (byte : UInt8) (rest : Bytes) :
    step rules (place.shift count) byte rest = (step rules place byte rest).shift count := by
  have same : (place.shift count).rest = place.rest := rfl
  unfold step
  rw [same]
  cases rules.symbols.match? place.rest with
  | some entry =>
      dsimp only
      rw [Place.advance_shift]
      rfl
  | none =>
      dsimp only
      split
      · rw [identifier, Place.skipWhile_shift]
        rfl
      · split
        · exact string_shift _ count _ _
        · split
          · exact number_shift count place
          · rfl

/-- A scan does not know where in the source it is. More bytes in front move every offset by their
number, and change nothing else. -/
theorem Yields.shift {place : Place} {tokens : List (Token Bytes)} {ending : ScanEnding}
    (derived : Yields rules place tokens ending) (count : Nat) :
    Yields rules (place.shift count) (tokens.map (Token.shift count)) (ending.shift count) := by
  induction derived with
  | @complete place ended =>
      refine .complete ?_
      rw [skipTrivia_shift]
      exact ended
  | @failed place byte rest offset problem reads broken =>
      have readsOn : (skipTrivia rules (place.shift count)).rest = byte :: rest := by
        rw [skipTrivia_shift]
        exact reads
      refine .failed readsOn ?_
      rw [skipTrivia_shift, step_shift, broken]
      rfl
  | @token place next byte rest token tokens ending reads taken _ ih =>
      have readsOn : (skipTrivia rules (place.shift count)).rest = byte :: rest := by
        rw [skipTrivia_shift]
        exact reads
      refine .token readsOn ?_ ih
      rw [skipTrivia_shift, step_shift, taken]
      rfl

/-- What a scan finds depends on what the place reads; where the place is only sets the offsets. -/
theorem Yields.relocated {first second : Place} {tokens : List (Token Bytes)}
    (derived : Yields rules first tokens .complete) (same : second.rest = first.rest) :
    ∃ again, Yields rules second again .complete ∧
      again.map Token.lexeme = tokens.map Token.lexeme := by
  have origin := yields_runFrom rules ⟨0, first.rest⟩
  have place : Place.shift first.offset ⟨0, first.rest⟩ = first := by
    simp only [Place.shift, Nat.zero_add]
  have placeOn : Place.shift second.offset ⟨0, first.rest⟩ = second := by
    simp only [Place.shift, Nat.zero_add, ← same]
  have here := (origin.shift first.offset).runFrom_eq
  rw [place, derived.runFrom_eq] at here
  injection here with found ended
  have completed : (runFrom rules [] ⟨0, first.rest⟩).ending = .complete := by
    cases ending : (runFrom rules [] ⟨0, first.rest⟩).ending with
    | complete => rfl
    | failed offset problem =>
        rw [ending] at ended
        cases ended
  have there := origin.shift second.offset
  rw [placeOn, completed] at there
  refine ⟨_, there, ?_⟩
  simp only [found, List.map_map, Function.comp_def, Token.lexeme_shift]

end Scan

end LexKit
