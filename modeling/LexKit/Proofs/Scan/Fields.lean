import LexKit.Proofs.Scan.Lexeme
import LexKit.Tokenize

/-!
# A lexer with fields

A lexer may keep its position, its tokens, its stage and its last failure in fields, store each
payload as soon as it has found the token, and leave the fields as they are when it is done. A call
puts back all of them but the last failure, which is read only after it was written. So it goes like
a scan whose payloads are stored afterwards, whatever the fields held.
-/

set_option autoImplicit false

namespace LexKit

inductive Stage where
  | scanning
  | done
  | failed
deriving DecidableEq, Repr

structure LexerFields (Handle : Type) where
  offset : Nat
  tokens : List (Token Handle)
  stage : Stage
  failure : Failure
deriving Repr

namespace LexerFields

variable {Handle : Type}

def initial : LexerFields Handle :=
  ⟨0, [], .scanning, ⟨0, ""⟩⟩

def restarted (fields : LexerFields Handle) : LexerFields Handle :=
  { fields with offset := 0, tokens := [], stage := .scanning }

def place (source : Bytes) (fields : LexerFields Handle) : Place :=
  ⟨fields.offset, source.drop fields.offset⟩

def due (source : Bytes) (fields : LexerFields Handle) : Nat :=
  if fields.stage = .scanning then source.length + 1 - fields.offset else 0

end LexerFields

/-- The position in which a step at `here` leaves the lexer if it fails at an offset. -/
def ScanProblem.leaves (here : Place) (offset : Nat) : ScanProblem → Nat
  | .unexpected _ => offset
  | .secondPoint => offset
  | .malformedNumber => (here.skipWhile Byte.isNumeralPart).offset
  | .unterminatedString => offset + 1

namespace PayloadStore

variable {State Handle : Type}

/-- One step of the loop: it skips trivia, and takes a token or fails unless this leads to the
end. -/
def turn (store : PayloadStore State Handle) (rules : ScanRules) (source : Bytes)
    (fields : LexerFields Handle) (state : State) :
    Except Fault Unit × LexerFields Handle × State :=
  let here := Scan.skipTrivia rules (fields.place source)
  match here.rest with
  | [] => (.ok (), { fields with offset := here.offset }, state)
  | byte :: rest =>
      match Scan.step rules here byte rest with
      | .failed offset problem =>
          (.ok (), { fields with
            offset := problem.leaves here offset
            stage := .failed
            failure := ⟨offset, problem.message⟩ }, state)
      | .token token next =>
          match store.internLexeme token.lexeme state with
          | (.ok lexeme, after) =>
              (.ok (), { fields with
                offset := next.offset
                tokens := fields.tokens ++ [⟨lexeme, token.offset⟩] }, after)
          | (.error fault, after) => (.error fault, { fields with offset := next.offset }, after)

/-- Every turn of the loop makes what is due less, which is why the loop ends. -/
theorem due_turn_lt {store : PayloadStore State Handle} {rules : ScanRules} {source : Bytes}
    {fields later : LexerFields Handle} {state after : State} (scanning : fields.stage = .scanning)
    (more : fields.offset < source.length)
    (ran : store.turn rules source fields state = (.ok (), later, after)) :
    later.due source < fields.due source := by
  have within : Place.Within source (fields.place source) := ⟨rfl, Nat.le_of_lt more⟩
  obtain ⟨gap, moved, -⟩ := Scan.over_skipTrivia rules (fields.place source)
  have here := within.over moved
  have start : fields.due source = source.length + 1 - fields.offset := by
    simp [LexerFields.due, scanning]
  have onward := moved.offset_le
  simp only [LexerFields.place] at onward
  unfold turn at ran
  dsimp only at ran
  split at ran
  · rename_i ended
    cases ran
    have length := here.length_rest
    rw [ended, List.length_nil] at length
    simp only [LexerFields.place] at length
    simp only [LexerFields.due, scanning, ↓reduceIte, LexerFields.place]
    omega
  · rename_i byte rest reads
    split at ran
    · cases ran
      simp only [LexerFields.due, scanning, ↓reduceIte, reduceCtorEq]
      omega
    · rename_i token next taken
      obtain ⟨text, nonempty, movedOn, -⟩ := Scan.step_spells reads taken
      have positive := List.length_pos_iff.mpr nonempty
      have further := movedOn.offset_eq
      have inside := (here.over movedOn).offset_le
      simp only [LexerFields.place] at further
      split at ran
      · cases ran
        simp only [LexerFields.due, scanning, ↓reduceIte]
        omega
      · cases ran

/-- Steps until one fails, or is refused a payload, or the position is at the end. -/
def loop (store : PayloadStore State Handle) (rules : ScanRules) (source : Bytes)
    (fields : LexerFields Handle) (state : State) :
    Except Fault Unit × LexerFields Handle × State :=
  if _scanning : fields.stage = .scanning then
    if _ended : source.length ≤ fields.offset then (.ok (), { fields with stage := .done }, state)
    else
      match _ran : store.turn rules source fields state with
      | (.error fault, later, after) => (.error fault, later, after)
      | (.ok (), later, after) => loop store rules source later after
  else (.ok (), fields, state)
termination_by fields.due source
decreasing_by exact due_turn_lt ‹_› (Nat.lt_of_not_le ‹_›) ‹_›

/-- A call of the lexer. What the fields have is given back if there is no success, and stays there
otherwise. -/
def call (store : PayloadStore State Handle) (rules : ScanRules) (source : Bytes)
    (fields : LexerFields Handle) (state : State) :
    Except Fault (Outcome Handle) × LexerFields Handle × State :=
  match store.loop rules source fields.restarted state with
  | (.error fault, later, after) =>
      (.error fault, { later with tokens := [] }, store.release later.tokens after)
  | (.ok (), later, after) =>
      if later.stage = .failed then
        (.ok (.failure later.failure), { later with tokens := [] },
          store.release later.tokens after)
      else (.ok (.success later.tokens), later, after)

/-! ## Calls and scans -/

variable {store : PayloadStore State Handle} {rules : ScanRules} {source : Bytes}

theorem loop_halted {fields : LexerFields Handle} (halted : fields.stage ≠ .scanning)
    (state : State) : store.loop rules source fields state = (.ok (), fields, state) := by
  rw [loop, dif_neg halted]

theorem loop_ended {fields : LexerFields Handle} (scanning : fields.stage = .scanning)
    (ended : source.length ≤ fields.offset) (state : State) :
    store.loop rules source fields state = (.ok (), { fields with stage := .done }, state) := by
  rw [loop, dif_pos scanning, dif_pos ended]

theorem loop_turn {fields later : LexerFields Handle} {state after : State}
    (scanning : fields.stage = .scanning) (more : fields.offset < source.length)
    (ran : store.turn rules source fields state = (.ok (), later, after)) :
    store.loop rules source fields state = store.loop rules source later after := by
  rw [loop, dif_pos scanning, dif_neg (Nat.not_le_of_lt more)]
  split
  · rename_i raised
    cases ran.symm.trans raised
  · rename_i same
    cases ran.symm.trans same
    rfl

theorem loop_raised {fields later : LexerFields Handle} {state after : State} {fault : Fault}
    (scanning : fields.stage = .scanning) (more : fields.offset < source.length)
    (ran : store.turn rules source fields state = (.error fault, later, after)) :
    store.loop rules source fields state = (.error fault, later, after) := by
  rw [loop, dif_pos scanning, dif_neg (Nat.not_le_of_lt more)]
  split
  · rename_i same
    cases ran.symm.trans same
    rfl
  · rename_i passed
    cases ran.symm.trans passed

/-- What the loop comes to, in terms of the payloads that were stored. -/
def stopped (offset : Nat) (failure : Failure) (ending : ScanEnding) :
    List (Token Handle) × Option Fault × State → Except Fault Unit × LexerFields Handle × State
  | (held, some fault, after) => (.error fault, ⟨offset, held, .scanning, failure⟩, after)
  | (held, none, after) =>
      match ending.failure? with
      | none => (.ok (), ⟨offset, held, .done, failure⟩, after)
      | some reported => (.ok (), ⟨offset, held, .failed, reported⟩, after)

private theorem lt_of_reads {place here : Place} {gap : Bytes} {byte : UInt8} {rest : Bytes}
    (within : Place.Within source place) (moved : Place.Over place gap here)
    (reads : here.rest = byte :: rest) : place.offset < source.length := by
  have length := within.length_rest
  rw [moved.rest_eq, reads] at length
  simp only [List.length_append, List.length_cons] at length
  omega

/-- The loop over the fields of a lexer comes to what the scan yields. It stores payloads in
between, and stops at the first one that cannot be stored. -/
theorem loop_of_yields {place : Place} {tokens : List (Token Bytes)} {ending : ScanEnding}
    (derived : Scan.Yields rules place tokens ending) (within : Place.Within source place)
    (done : List (Token Handle)) (failure : Failure) (state : State) :
    ∃ offset, store.loop rules source ⟨place.offset, done, .scanning, failure⟩ state =
      stopped offset failure ending (store.intern done.reverse tokens state) := by
  induction derived generalizing done state with
  | @complete place ended =>
      obtain ⟨gap, moved, -⟩ := Scan.over_skipTrivia rules place
      have length := (within.over moved).length_rest
      rw [ended, List.length_nil] at length
      refine ⟨source.length, ?_⟩
      -- If only trivia is left, one more turn goes to the end; at the end there is none.
      simp only [intern, List.reverse_reverse, stopped, ScanEnding.failure?]
      by_cases more : place.offset < source.length
      · have turned : store.turn rules source ⟨place.offset, done, .scanning, failure⟩ state =
            (.ok (), ⟨source.length, done, .scanning, failure⟩, state) := by
          simp only [turn, LexerFields.place, ← within.rest_eq, ended, ← length, Nat.add_zero]
        rw [loop_turn rfl more turned, loop_ended rfl (Nat.le_refl _)]
      · have here : place.offset = source.length :=
          Nat.le_antisymm within.offset_le (Nat.le_of_not_lt more)
        rw [loop_ended rfl (Nat.le_of_eq here.symm), here]
  | @failed place byte rest offset problem reads broken =>
      obtain ⟨gap, moved, -⟩ := Scan.over_skipTrivia rules place
      have turned : store.turn rules source ⟨place.offset, done, .scanning, failure⟩ state =
          (.ok (), ⟨problem.leaves (Scan.skipTrivia rules place) offset, done, .failed,
            ⟨offset, problem.message⟩⟩, state) := by
        simp only [turn, LexerFields.place, ← within.rest_eq, reads, broken]
      refine ⟨problem.leaves (Scan.skipTrivia rules place) offset, ?_⟩
      rw [loop_turn rfl (lt_of_reads within moved reads) turned, loop_halted (by simp)]
      simp only [intern, List.reverse_reverse, stopped, ScanEnding.failure?]
  | @token place next byte rest token tokens ending reads taken _ ih =>
      obtain ⟨gap, moved, -⟩ := Scan.over_skipTrivia rules place
      obtain ⟨text, -, movedOn, -⟩ := Scan.step_spells reads taken
      have more := lt_of_reads within moved reads
      cases held : store.internLexeme token.lexeme state with
      | mk result after =>
          cases result with
          | error fault =>
              have turned : store.turn rules source ⟨place.offset, done, .scanning, failure⟩ state =
                  (.error fault, ⟨next.offset, done, .scanning, failure⟩, after) := by
                simp only [turn, LexerFields.place, ← within.rest_eq, reads, taken, held]
              refine ⟨next.offset, ?_⟩
              rw [loop_raised rfl more turned]
              simp only [intern, held, List.reverse_reverse, stopped]
          | ok lexeme =>
              have turned : store.turn rules source ⟨place.offset, done, .scanning, failure⟩ state =
                  (.ok (), ⟨next.offset, done ++ [⟨lexeme, token.offset⟩], .scanning, failure⟩,
                    after) := by
                simp only [turn, LexerFields.place, ← within.rest_eq, reads, taken, held]
              obtain ⟨offset, onward⟩ := ih ((within.over moved).over movedOn)
                (done ++ [⟨lexeme, token.offset⟩]) after
              refine ⟨offset, ?_⟩
              rw [loop_turn rfl more turned, onward, List.reverse_append]
              simp only [intern, held, List.reverse_singleton, List.singleton_append]

/-- Whatever the fields hold, a call gives what storing the payloads of the whole scan gives. -/
theorem call_eq (store : PayloadStore State Handle) (rules : ScanRules) (source : Bytes)
    (fields : LexerFields Handle) (state : State) :
    ((store.call rules source fields state).1, (store.call rules source fields state).2.2) =
      store.tokenize rules source state := by
  obtain ⟨offset, ran⟩ := loop_of_yields (Scan.yields_runFrom rules (Place.start source))
    (Place.Within.start source) [] fields.failure state
  have begun : store.loop rules source fields.restarted state = _ := ran
  rw [List.reverse_nil] at begun
  simp only [call, tokenize, Scan.run, begun]
  generalize store.intern [] (Scan.runFrom rules [] (Place.start source)).tokens state = interned
  obtain ⟨held, fault?, after⟩ := interned
  cases fault? with
  | some fault => rfl
  | none =>
      cases ended : (Scan.runFrom rules [] (Place.start source)).ending with
      | complete => rfl
      | failed at_ problem => rfl

end PayloadStore

end LexKit
