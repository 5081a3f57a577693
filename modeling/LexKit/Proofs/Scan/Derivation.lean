import LexKit.Scan

/-!
# Derivations of a scan

A scan goes over its source in turns: it skips trivia, and then it ends or takes one token.
`Yields` has one rule for each way in which a turn can go, so that a property of scans is proved by
induction on a derivation. `TokenStart` holds of the places at which a turn looks for a token.
-/

set_option autoImplicit false

namespace LexKit

namespace Place

/-- What `place` reads begins with `text`, and `next` is the place behind it. -/
structure Over (place : Place) (text : Bytes) (next : Place) : Prop where
  rest_eq : place.rest = text ++ next.rest
  offset_eq : next.offset = place.offset + text.length

structure Within (source : Bytes) (place : Place) : Prop where
  rest_eq : place.rest = source.drop place.offset
  offset_le : place.offset ≤ source.length

theorem Over.refl (place : Place) : Over place [] place :=
  ⟨rfl, rfl⟩

theorem Over.trans {first second third : Place} {before after : Bytes}
    (left : Over first before second) (right : Over second after third) :
    Over first (before ++ after) third := by
  refine ⟨?_, ?_⟩
  · rw [left.rest_eq, right.rest_eq, List.append_assoc]
  · rw [right.offset_eq, left.offset_eq, List.length_append, Nat.add_assoc]

theorem Over.offset_le {place next : Place} {text : Bytes} (moved : Over place text next) :
    place.offset ≤ next.offset := by
  rw [moved.offset_eq]
  exact Nat.le_add_right _ _

theorem Over.length_eq {place next : Place} {text : Bytes} (moved : Over place text next) :
    next.offset + next.rest.length = place.offset + place.rest.length := by
  rw [moved.offset_eq, moved.rest_eq, List.length_append, Nat.add_assoc]

theorem Within.start (source : Bytes) : Within source (start source) :=
  ⟨rfl, Nat.zero_le _⟩

theorem Within.length_rest {source : Bytes} {place : Place} (within : Within source place) :
    place.offset + place.rest.length = source.length := by
  have bound := within.offset_le
  rw [within.rest_eq, List.length_drop]
  omega

/-- A place that has moved on reads the same source, from further on. -/
theorem Within.over {source text : Bytes} {place next : Place}
    (within : Within source place) (moved : Over place text next) : Within source next := by
  have total := within.length_rest
  rw [moved.rest_eq, List.length_append] at total
  refine ⟨?_, ?_⟩
  · rw [moved.offset_eq, ← List.drop_drop, ← within.rest_eq, moved.rest_eq, List.drop_left]
  · rw [moved.offset_eq]
    omega

theorem Within.extract_eq {source text : Bytes} {place next : Place}
    (within : Within source place) (moved : Over place text next) :
    source.extract place.offset next.offset = text := by
  rw [List.extract_eq_take_drop, ← within.rest_eq, moved.offset_eq, Nat.add_sub_cancel_left,
    moved.rest_eq, List.take_left]

private theorem skipFrom_offset (accepts : UInt8 → Bool) (offset : Nat) (rest : Bytes) :
    (skipFrom accepts offset rest).offset = offset + (rest.takeWhile accepts).length := by
  induction rest generalizing offset with
  | nil => rfl
  | cons byte rest ih =>
      unfold skipFrom
      by_cases accepted : accepts byte
      · simp only [accepted, ↓reduceIte, ih, List.takeWhile_cons_of_pos, List.length_cons]
        omega
      · simp [accepted]

theorem over_skipFrom (accepts : UInt8 → Bool) (offset : Nat) (rest : Bytes) :
    Over ⟨offset, rest⟩ (rest.takeWhile accepts) (skipFrom accepts offset rest) :=
  ⟨by rw [skipFrom_rest, List.takeWhile_append_dropWhile], skipFrom_offset accepts offset rest⟩

theorem over_skipWhile (accepts : UInt8 → Bool) (place : Place) :
    Over place (place.rest.takeWhile accepts) (place.skipWhile accepts) :=
  over_skipFrom accepts place.offset place.rest

theorem over_advance {place : Place} {text : Bytes} (reads : text <+: place.rest) :
    Over place text (place.advance text.length) := by
  obtain ⟨after, split⟩ := reads
  refine ⟨?_, rfl⟩
  rw [advance, ← split, List.drop_left]

theorem head_skipWhile (accepts : UInt8 → Bool) (place : Place) :
    (place.skipWhile accepts).rest.head?.any accepts = false := by
  have stopped := List.head?_dropWhile_not accepts place.rest
  rw [skipWhile_rest]
  split at stopped
  · rename_i byte found
    rw [found]
    exact stopped
  · rename_i absent
    rw [absent]
    rfl

end Place

namespace Scan

variable {rules : ScanRules}

/-- The scan from a place on, one rule for each way in which a turn can go. -/
inductive Yields (rules : ScanRules) : Place → List (Token Bytes) → ScanEnding → Prop where
  | complete {place : Place} :
      (skipTrivia rules place).rest = [] → Yields rules place [] .complete
  | failed {place : Place} {byte : UInt8} {rest : Bytes} {offset : Nat} {problem : ScanProblem} :
      (skipTrivia rules place).rest = byte :: rest →
      step rules (skipTrivia rules place) byte rest = .failed offset problem →
      Yields rules place [] (.failed offset problem)
  | token {place next : Place} {byte : UInt8} {rest : Bytes} {token : Token Bytes}
      {tokens : List (Token Bytes)} {ending : ScanEnding} :
      (skipTrivia rules place).rest = byte :: rest →
      step rules (skipTrivia rules place) byte rest = .token token next →
      Yields rules next tokens ending → Yields rules place (token :: tokens) ending

private theorem runFrom_complete {place : Place} (ended : (skipTrivia rules place).rest = []) :
    runFrom rules [] place = ⟨[], .complete⟩ := by
  rw [runFrom]
  split
  · rfl
  · rename_i split
    rw [ended] at split
    cases split

private theorem runFrom_failed {place : Place} {byte : UInt8} {rest : Bytes} {offset : Nat}
    {problem : ScanProblem} (reads : (skipTrivia rules place).rest = byte :: rest)
    (failed : step rules (skipTrivia rules place) byte rest = .failed offset problem) :
    runFrom rules [] place = ⟨[], .failed offset problem⟩ := by
  rw [runFrom]
  split
  · rename_i ended
    rw [reads] at ended
    cases ended
  · rename_i same
    rw [reads] at same
    cases same
    split
    · rename_i failedAlso
      rw [failed] at failedAlso
      cases failedAlso
      rfl
    · rename_i taken
      rw [failed] at taken
      cases taken

private theorem runFrom_token {place next : Place} {byte : UInt8} {rest : Bytes}
    {token : Token Bytes} (reads : (skipTrivia rules place).rest = byte :: rest)
    (taken : step rules (skipTrivia rules place) byte rest = .token token next) :
    runFrom rules [] place =
      ⟨token :: (runFrom rules [] next).tokens, (runFrom rules [] next).ending⟩ := by
  rw [runFrom]
  split
  · rename_i ended
    rw [reads] at ended
    cases ended
  · rename_i same
    rw [reads] at same
    cases same
    split
    · rename_i failed
      rw [taken] at failed
      cases failed
    · rename_i takenAlso
      rw [taken] at takenAlso
      cases takenAlso
      rw [runFrom_done]
      rfl

theorem yields_runFrom (rules : ScanRules) (place : Place) :
    Yields rules place (runFrom rules [] place).tokens (runFrom rules [] place).ending := by
  cases reads : (skipTrivia rules place).rest with
  | nil =>
      rw [runFrom_complete reads]
      exact .complete reads
  | cons byte rest =>
      cases stepped : step rules (skipTrivia rules place) byte rest with
      | failed offset problem =>
          rw [runFrom_failed reads stepped]
          exact .failed reads stepped
      | token token next =>
          rw [runFrom_token reads stepped]
          exact .token reads stepped (yields_runFrom rules next)
termination_by place.rest.length
decreasing_by
  exact Nat.lt_of_lt_of_le (step_length_lt reads stepped) (skipTrivia_length_le rules place)

theorem Yields.runFrom_eq {place : Place} {tokens : List (Token Bytes)} {ending : ScanEnding}
    (derived : Yields rules place tokens ending) : runFrom rules [] place = ⟨tokens, ending⟩ := by
  induction derived with
  | complete ended => exact runFrom_complete ended
  | failed reads failed => exact runFrom_failed reads failed
  | token reads taken _ ih => rw [runFrom_token reads taken, ih]

/-- Only what follows the trivia matters to a scan. -/
theorem Yields.of_skipTrivia_eq {first second : Place} {tokens : List (Token Bytes)}
    {ending : ScanEnding} (derived : Yields rules first tokens ending)
    (same : skipTrivia rules first = skipTrivia rules second) :
    Yields rules second tokens ending := by
  cases derived with
  | complete ended =>
      rw [same] at ended
      exact .complete ended
  | failed reads broken =>
      rw [same] at reads broken
      exact .failed reads broken
  | token reads taken behind =>
      rw [same] at reads taken
      exact .token reads taken behind

/-- The scan that begins at `origin` comes to look for a token at a place. -/
inductive TokenStart (rules : ScanRules) (origin : Place) : Place → Prop where
  | first : TokenStart rules origin (skipTrivia rules origin)
  | next {here following : Place} {byte : UInt8} {rest : Bytes} {token : Token Bytes} :
      TokenStart rules origin here → here.rest = byte :: rest →
      step rules here byte rest = .token token following →
      TokenStart rules origin (skipTrivia rules following)

end Scan

end LexKit
