import LexKit.Proofs.Scan.Lexeme

/-!
# Tilings

The tokens of a scan that went through cut its source into pieces: trivia and lexemes in turn, with
nothing left over and nothing used twice. `Tiling` says so of a list of tokens, with the offsets at
which the lexemes end. It speaks of the source and the tokens alone.
-/

set_option autoImplicit false

namespace LexKit

/-- From a position on, the source is a concatenation of trivia and the texts of the tokens, in
order. The last argument lists where these texts end. -/
inductive Tiling (rules : ScanRules) (source : Bytes) :
    Nat → List (Token Bytes) → List Nat → Prop where
  | finish {position : Nat} :
      position ≤ source.length → Trivia rules.markerBytes (source.drop position) [] →
      Tiling rules source position [] []
  | token {position stop : Nat} {token : Token Bytes} {tokens : List (Token Bytes)}
      {stops : List Nat} :
      position ≤ token.offset → token.offset < stop → stop ≤ source.length →
      Trivia rules.markerBytes (source.extract position token.offset)
        (source.drop token.offset) →
      Spells rules token.lexeme (source.extract token.offset stop) (source.drop stop) →
      Tiling rules source stop tokens stops →
      Tiling rules source position (token :: tokens) (stop :: stops)

theorem Tiling.length_stops {rules : ScanRules} {source : Bytes} {position : Nat}
    {tokens : List (Token Bytes)} {stops : List Nat}
    (tiled : Tiling rules source position tokens stops) : stops.length = tokens.length := by
  induction tiled with
  | finish => rfl
  | token _ _ _ _ _ _ ih => rw [List.length_cons, List.length_cons, ih]

namespace Scan

variable {rules : ScanRules}

def stopsFrom (rules : ScanRules) (place : Place) : List Nat :=
  let here := skipTrivia rules place
  match _split : here.rest with
  | [] => []
  | byte :: rest =>
      match _taken : step rules here byte rest with
      | .failed _ _ => []
      | .token _ next => next.offset :: stopsFrom rules next
termination_by place.rest.length
decreasing_by
  exact Nat.lt_of_lt_of_le (step_length_lt ‹_› ‹_›) (skipTrivia_length_le rules place)

theorem stopsFrom_ended {place : Place} (ended : (skipTrivia rules place).rest = []) :
    stopsFrom rules place = [] := by
  rw [stopsFrom]
  split
  · rfl
  · rename_i reads
    rw [ended] at reads
    cases reads

theorem stopsFrom_failed {place : Place} {byte : UInt8} {rest : Bytes} {offset : Nat}
    {problem : ScanProblem} (reads : (skipTrivia rules place).rest = byte :: rest)
    (failed : step rules (skipTrivia rules place) byte rest = .failed offset problem) :
    stopsFrom rules place = [] := by
  rw [stopsFrom]
  split
  · rfl
  · rename_i same
    rw [reads] at same
    cases same
    split
    · rfl
    · rename_i taken
      rw [failed] at taken
      cases taken

theorem stopsFrom_token {place next : Place} {byte : UInt8} {rest : Bytes}
    {token : Token Bytes} (reads : (skipTrivia rules place).rest = byte :: rest)
    (taken : step rules (skipTrivia rules place) byte rest = .token token next) :
    stopsFrom rules place = next.offset :: stopsFrom rules next := by
  rw [stopsFrom]
  split
  · rename_i ended
    rw [reads] at ended
    cases ended
  · rename_i same
    rw [reads] at same
    cases same
    split
    · rename_i failed
      rw [taken] at failed
      cases failed
    · rename_i takenAlso
      rw [taken] at takenAlso
      cases takenAlso
      rfl

/-- The tokens that are found stop where the scan stands behind them. -/
theorem tiling_of_yields {source : Bytes} {place : Place} {tokens : List (Token Bytes)}
    {ending : ScanEnding} (derived : Yields rules place tokens ending)
    (completed : ending = .complete) (within : Place.Within source place) :
    Tiling rules source place.offset tokens (stopsFrom rules place) := by
  induction derived with
  | @complete place ended =>
      obtain ⟨gap, moved, trivia⟩ := over_skipTrivia rules place
      rw [stopsFrom_ended ended]
      refine .finish within.offset_le ?_
      have rest := moved.rest_eq
      rw [ended] at trivia rest
      rw [← within.rest_eq, rest, List.append_nil]
      exact trivia
  | failed => cases completed
  | @token place next byte rest token tokens ending reads taken _ ih =>
      obtain ⟨gap, moved, trivia⟩ := over_skipTrivia rules place
      obtain ⟨text, nonempty, movedOn, offset, spelled⟩ := step_spells reads taken
      have here := within.over moved
      have behind := here.over movedOn
      have length : 0 < text.length := List.length_pos_iff.mpr nonempty
      rw [stopsFrom_token reads taken]
      refine .token ?_ ?_ behind.offset_le ?_ ?_ (ih completed behind)
      · rw [offset, moved.offset_eq]
        exact Nat.le_add_right _ _
      · rw [offset, movedOn.offset_eq]
        exact Nat.lt_add_of_pos_right length
      · rw [offset, within.extract_eq moved, ← here.rest_eq]
        exact trivia
      · rw [offset, here.extract_eq movedOn, ← behind.rest_eq]
        exact spelled

theorem tiling_of_complete {source : Bytes} (completed : (run rules source).ending = .complete) :
    ∃ stops, Tiling rules source 0 (run rules source).tokens stops :=
  ⟨_, tiling_of_yields (yields_runFrom rules (Place.start source)) completed
    (Place.Within.start source)⟩

end Scan

end LexKit
