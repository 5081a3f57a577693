import LexKit.Proofs.Scan.Derivation
import LexKit.Proofs.Scan.Ruling
import LexKit.Proofs.Scan.Truncation

/-!
# The loops of a scan

A scan as two loops over a cursor, one of steps and one, in each step, of turns that skip trivia.
Nothing here presupposes that they end: a run of a loop is a finite sequence of its turns. Each turn
moves the cursor forward inside the source, so that both loops come to an end, the outer one after
at most one step for each byte, and what they find is the scan.
-/

set_option autoImplicit false

namespace LexKit

namespace Scan

/-- The turns that skip trivia lead from a cursor to the one where they return. -/
inductive Skips (rules : ScanRules) : Cursor → Cursor → Prop where
  | returns {cursor : Cursor} : cursor.triviaTurn rules = .ok none → Skips rules cursor cursor
  | turn {cursor next last : Cursor} :
      cursor.triviaTurn rules = .ok (some next) → Skips rules next last → Skips rules cursor last

/-- A step that does not fail: it skips trivia, and takes a token unless this leads to the end. -/
inductive Passes (rules : ScanRules) (cursor : Cursor) : Option (Token Bytes) → Cursor → Prop where
  | ended {here : Cursor} :
      Skips rules cursor here → here.atEnd = true → Passes rules cursor none here
  | token {here next : Cursor} {found : Token Bytes} {looks : List (Option UInt8)} :
      Skips rules cursor here → here.atEnd = false →
      here.ruling rules [] = .ok (.token found next) looks → Passes rules cursor (some found) next

/-- A step that fails, and the cursor that it leaves. -/
inductive Fails (rules : ScanRules) (cursor : Cursor) : Nat → ScanProblem → Cursor → Prop where
  | failed {here last : Cursor} {offset : Nat} {problem : ScanProblem}
      {looks : List (Option UInt8)} :
      Skips rules cursor here → here.atEnd = false →
      here.ruling rules [] = .ok (.failed offset problem last) looks →
      Fails rules cursor offset problem last

/-- The main loop, with the cursors that its steps leave and what they find: it runs until a step
fails or the cursor is at the end. -/
inductive Loops (rules : ScanRules) :
    Cursor → List Cursor → List (Token Bytes) → ScanEnding → Prop where
  | done {cursor : Cursor} : cursor.atEnd = true → Loops rules cursor [] [] .complete
  | pass {cursor next : Cursor} {found : Option (Token Bytes)} {stops : List Cursor}
      {tokens : List (Token Bytes)} {ending : ScanEnding} :
      cursor.atEnd = false → Passes rules cursor found next →
      Loops rules next stops tokens ending →
      Loops rules cursor (next :: stops) (found.toList ++ tokens) ending
  | fail {cursor last : Cursor} {offset : Nat} {problem : ScanProblem} :
      cursor.atEnd = false → Fails rules cursor offset problem last →
      Loops rules cursor [last] [] (.failed offset problem)

end Scan

namespace Cursor

variable {rules : ScanRules} {cursor next third : Cursor}

theorem Ahead.inside (ahead : cursor.Ahead next) (inside : cursor.Inside) : next.Inside :=
  ⟨Int.le_trans inside.natural (Int.le_of_lt ahead.lt), ahead.le⟩

/-- The cursor has moved on if it has moved on twice, and it is still inside the source. -/
theorem Ahead.trans (first : cursor.Ahead next) (second : next.Ahead third) :
    cursor.Ahead third :=
  ⟨second.bytes_eq.trans first.bytes_eq, Int.lt_trans first.lt second.lt, second.le⟩

theorem Ahead.onward (ahead : cursor.Ahead next) : cursor.Onward next :=
  ⟨ahead.bytes_eq, Int.le_of_lt ahead.lt, ahead.le⟩

theorem Onward.trans (first : cursor.Onward next) (second : next.Onward third) :
    cursor.Onward third :=
  ⟨second.bytes_eq.trans first.bytes_eq, Int.le_trans first.le_offset second.le_offset,
    second.le⟩

theorem Ahead.lt_size (ahead : cursor.Ahead next) :
    (next.size - next.offset).toNat < (cursor.size - cursor.offset).toNat := by
  have bytes := congrArg List.length ahead.bytes_eq
  have lt := ahead.lt
  have le := ahead.le
  simp only [size] at le ⊢
  omega

private theorem ahead_behind (inside : cursor.Inside) {text after : Bytes}
    (reads : cursor.rest = text ++ after) (nonempty : text ≠ []) :
    cursor.Ahead (cursor.behind text.length) := by
  have positive := List.length_pos_iff.mpr nonempty
  refine ⟨rfl, ?_, (inside.behind reads).1.le⟩
  simp only [behind]
  omega

/-- What a turn does depends on whether a comment or whitespace begins here. -/
private theorem triviaTurn_cases (inside : cursor.Inside) :
    (rules.markerBytes.isPrefixOf cursor.place.rest = true ∧
      ∃ next, cursor.triviaTurn rules = .ok (some next) ∧ cursor.Ahead next ∧
        next.place = Scan.skipComment rules cursor.place) ∨
    (rules.markerBytes.isPrefixOf cursor.place.rest = false ∧
      cursor.place.rest.head?.any Byte.isWhitespace = true ∧
      ∃ next, cursor.triviaTurn rules = .ok (some next) ∧ cursor.Ahead next ∧
        next.place = cursor.place.skipWhitespace) ∨
    (rules.markerBytes.isPrefixOf cursor.place.rest = false ∧
      cursor.place.rest.head?.any Byte.isWhitespace = false ∧
      cursor.triviaTurn rules = .ok none) := by
  have starts : cursor.startsWith rules.markerBytes =
      rules.markerBytes.isPrefixOf cursor.place.rest := by
    rw [startsWith, decide_eq_true inside.le, Bool.true_and]
    rfl
  cases commented : rules.markerBytes.isPrefixOf cursor.place.rest with
  | true =>
      have marker := Place.over_advance (List.isPrefixOf_iff_prefix.mp commented)
      obtain ⟨within, follows⟩ := inside.behind marker.rest_eq
      have line := Place.over_skipWhile (· != Byte.lineFeed)
        (cursor.place.advance rules.markerBytes.length)
      have moved := marker.trans line
      have next : (cursor.advance rules.markerBytes.length).skipToLineEnd =
          cursor.behind (rules.markerBytes ++ (cursor.place.advance
            rules.markerBytes.length).rest.takeWhile (· != Byte.lineFeed)).length := by
        rw [advance_eq inside marker.rest_eq, skipToLineEnd_eq within, follows, behind_behind,
          List.length_append]
      refine .inl ⟨rfl, _, ?_, ahead_behind inside moved.rest_eq ?_, (place_behind inside moved).1⟩
      · rw [triviaTurn, starts, commented, if_pos rfl, next]
        rfl
      · intro empty
        exact rules.marker_ne (List.append_eq_nil_iff.mp empty).1
  | false =>
      have moved := Place.over_skipWhile Byte.isWhitespace cursor.place
      have turn : cursor.triviaTurn rules =
          .ok (if (cursor.behind (cursor.place.rest.takeWhile
            Byte.isWhitespace).length).offset = cursor.offset then none
              else some (cursor.behind (cursor.place.rest.takeWhile
                Byte.isWhitespace).length)) := by
        rw [triviaTurn, starts, commented, if_neg Bool.false_ne_true, skipWhile_eq inside]
        rfl
      cases blank : cursor.place.rest.head?.any Byte.isWhitespace with
      | true =>
          have nonempty : cursor.place.rest.takeWhile Byte.isWhitespace ≠ [] := by
            cases reads : cursor.place.rest with
            | nil =>
                rw [reads] at blank
                cases blank
            | cons byte rest =>
                rw [reads] at blank
                have accepted : Byte.isWhitespace byte = true := blank
                rw [List.takeWhile_cons_of_pos accepted]
                exact List.cons_ne_nil _ _
          have ahead := ahead_behind inside moved.rest_eq nonempty
          rw [if_neg (Int.ne_of_gt ahead.lt)] at turn
          exact .inr (.inl ⟨rfl, rfl, _, turn, ahead, (place_behind inside moved).1⟩)
      | false =>
          have empty : cursor.place.rest.takeWhile Byte.isWhitespace = [] := by
            cases reads : cursor.place.rest with
            | nil => rfl
            | cons byte rest =>
                rw [reads] at blank
                exact List.takeWhile_cons_of_neg (by simpa using blank)
          rw [empty, if_pos (by simp [behind])] at turn
          exact .inr (.inr ⟨rfl, rfl, turn⟩)

theorem triviaTurn_ahead (inside : cursor.Inside) :
    ∃ turn, cursor.triviaTurn rules = .ok turn ∧
      ∀ next, turn = some next → cursor.Ahead next := by
  rcases @triviaTurn_cases rules cursor inside with ⟨-, next, turn, ahead, -⟩ |
    ⟨-, -, next, turn, ahead, -⟩ | ⟨-, -, turn⟩
  · refine ⟨_, turn, ?_⟩
    rintro _ ⟨⟩
    exact ahead
  · refine ⟨_, turn, ?_⟩
    rintro _ ⟨⟩
    exact ahead
  · refine ⟨_, turn, ?_⟩
    rintro _ ⟨⟩

/-- In front of the end, the rules answer. A token moves the cursor forward, and a failure does not
move it back. -/
theorem ruling_cases (inside : cursor.Inside) (more : cursor.atEnd = false) :
    ∃ byte rest, cursor.place.rest = byte :: rest ∧ ∃ ruling looks,
      cursor.ruling rules [] = .ok ruling looks ∧
      ((∃ found next place, ruling = .token found next ∧ cursor.Ahead next ∧ next.place = place ∧
          Scan.step rules cursor.place byte rest = .token found place) ∨
        ∃ offset problem last, ruling = .failed offset problem last ∧ cursor.Onward last ∧
          Scan.step rules cursor.place byte rest = .failed offset problem) := by
  rw [atEnd_eq inside] at more
  obtain ⟨byte, rest, reads⟩ := List.exists_cons_of_ne_nil (List.isEmpty_eq_false_iff.mp more)
  obtain ⟨last, onward, gives⟩ := ruling_gives inside reads rules
  obtain ⟨looks, ruled, -⟩ := gives []
  refine ⟨byte, rest, reads, _, _, ruled, ?_⟩
  cases stepped : Scan.step rules cursor.place byte rest with
  | failed offset problem => exact .inr ⟨offset, problem, last, rfl, onward, rfl⟩
  | token found place =>
      obtain ⟨text, nonempty, moved, -⟩ := Scan.step_spells reads stepped
      obtain ⟨stands, same⟩ := place_behind inside moved
      rw [Ruling.ofStep, ← same]
      exact .inl ⟨found, _, place, rfl, ahead_behind inside moved.rest_eq nonempty, stands, rfl⟩

end Cursor

namespace Scan

variable {rules : ScanRules} {cursor last : Cursor}

theorem Skips.place_eq (skips : Skips rules cursor last) (inside : cursor.Inside) :
    last.Inside ∧ last.place = skipTrivia rules cursor.place ∧
      (last = cursor ∨ cursor.Ahead last) := by
  induction skips with
  | @returns cursor turn =>
      rcases @Cursor.triviaTurn_cases rules cursor inside with ⟨-, next, other, -⟩ |
        ⟨-, -, next, other, -⟩ | ⟨plain, solid, -⟩
      · rw [turn] at other
        cases other
      · rw [turn] at other
        cases other
      · exact ⟨inside, (skipTrivia_eq_self plain solid).symm, .inl rfl⟩
  | @turn cursor next last turn _ ih =>
      have onward : ∀ other, cursor.triviaTurn rules = .ok (some other) → cursor.Ahead other →
          skipTrivia rules other.place = skipTrivia rules cursor.place →
          last.Inside ∧ last.place = skipTrivia rules cursor.place ∧
            (last = cursor ∨ cursor.Ahead last) := by
        intro other same ahead skipped
        rw [turn] at same
        cases same
        obtain ⟨within, stands, still | further⟩ := ih (ahead.inside inside)
        · rw [still]
          exact ⟨ahead.inside inside, by rw [← still, stands, skipped], .inr ahead⟩
        · exact ⟨within, stands.trans skipped, .inr (ahead.trans further)⟩
      rcases @Cursor.triviaTurn_cases rules cursor inside with
        ⟨commented, other, same, ahead, place⟩ | ⟨plain, blank, other, same, ahead, place⟩ |
        ⟨-, -, same⟩
      · refine onward other same ahead ?_
        rw [place, skipTrivia_of_commented commented]
      · refine onward other same ahead ?_
        rw [place, skipTrivia_of_blank plain blank]
      · rw [turn] at same
        cases same

theorem exists_skips (rules : ScanRules) {cursor : Cursor} (inside : cursor.Inside) :
    ∃ last, Skips rules cursor last := by
  obtain ⟨turn, ran, onward⟩ := @Cursor.triviaTurn_ahead rules cursor inside
  cases turn with
  | none => exact ⟨cursor, .returns ran⟩
  | some next =>
      have ahead := onward next rfl
      obtain ⟨last, skips⟩ := exists_skips rules (ahead.inside inside)
      exact ⟨last, .turn ran skips⟩
termination_by (cursor.size - cursor.offset).toNat
decreasing_by exact ahead.lt_size

theorem Skips.onward (skips : Skips rules cursor last) (inside : cursor.Inside) :
    cursor.Onward last := by
  obtain ⟨-, -, rfl | ahead⟩ := skips.place_eq inside
  · exact Cursor.onward_self inside
  · exact ahead.onward

theorem Passes.ahead {next : Cursor} {found : Option (Token Bytes)}
    (passes : Passes rules cursor found next) (inside : cursor.Inside)
    (more : cursor.atEnd = false) : cursor.Ahead next := by
  cases passes with
  | ended skips ended =>
      obtain ⟨-, -, rfl | ahead⟩ := skips.place_eq inside
      · rw [more] at ended
        cases ended
      · exact ahead
  | @token here next found looks skips unended ruled =>
      obtain ⟨within, -, reached⟩ := skips.place_eq inside
      have onward : here.Ahead next := by
        obtain ⟨byte, rest, -, ruling, same, ran, ⟨other, further, place, rfl, ahead, -⟩ |
            ⟨offset, problem, last, rfl, -⟩⟩ := @Cursor.ruling_cases rules here within unended
        · cases ruled.symm.trans ran
          exact ahead
        · cases ruled.symm.trans ran
      rcases reached with rfl | ahead
      · exact onward
      · exact ahead.trans onward

theorem Fails.onward {offset : Nat} {problem : ScanProblem}
    (fails : Fails rules cursor offset problem last) (inside : cursor.Inside) :
    cursor.Onward last := by
  cases fails with
  | @failed here last offset problem looks skips unended ruled =>
      obtain ⟨within, -⟩ := skips.place_eq inside
      obtain ⟨byte, rest, -, ruling, same, ran, ⟨other, further, place, rfl, -⟩ |
          ⟨_, _, stop, rfl, onward, -⟩⟩ := @Cursor.ruling_cases rules here within unended
      · cases ruled.symm.trans ran
      · cases ruled.symm.trans ran
        exact (skips.onward inside).trans onward

theorem passes_or_fails (rules : ScanRules) (inside : cursor.Inside) :
    (∃ found next, Passes rules cursor found next) ∨
      ∃ offset problem last, Fails rules cursor offset problem last := by
  obtain ⟨here, skips⟩ := exists_skips rules inside
  obtain ⟨within, -⟩ := skips.place_eq inside
  cases unended : here.atEnd with
  | true => exact .inl ⟨none, here, .ended skips unended⟩
  | false =>
      obtain ⟨byte, rest, -, ruling, looks, ran, ⟨found, next, place, rfl, -⟩ |
          ⟨offset, problem, last, rfl, -⟩⟩ := @Cursor.ruling_cases rules here within unended
      · exact .inl ⟨some found, next, .token skips unended ran⟩
      · exact .inr ⟨offset, problem, last, .failed skips unended ran⟩

theorem exists_loops (rules : ScanRules) {cursor : Cursor} (inside : cursor.Inside) :
    ∃ stops tokens ending, Loops rules cursor stops tokens ending := by
  -- A step that passes leaves fewer bytes ahead, and one that fails is the last.
  cases more : cursor.atEnd with
  | true => exact ⟨[], [], .complete, .done more⟩
  | false =>
      rcases passes_or_fails rules inside with ⟨found, next, passes⟩ |
        ⟨offset, problem, last, fails⟩
      · have ahead := passes.ahead inside more
        obtain ⟨stops, tokens, ending, loops⟩ := exists_loops rules (ahead.inside inside)
        exact ⟨next :: stops, _, ending, .pass more passes loops⟩
      · exact ⟨[last], [], _, .fail more fails⟩
termination_by (cursor.size - cursor.offset).toNat
decreasing_by exact ahead.lt_size

section Run

variable {stops : List Cursor} {tokens : List (Token Bytes)} {ending : ScanEnding}

theorem Loops.length_le (loops : Loops rules cursor stops tokens ending)
    (inside : cursor.Inside) : stops.length ≤ (cursor.size - cursor.offset).toNat := by
  induction loops with
  | done => exact Nat.zero_le _
  | @pass cursor next found stops tokens ending more passes _ ih =>
      have ahead := passes.ahead inside more
      have later := ih (ahead.inside inside)
      have less := ahead.lt_size
      rw [List.length_cons]
      omega
  | @fail cursor last offset problem more =>
      have left := Cursor.lt_of_not_atEnd (by rw [more]; exact Bool.false_ne_true)
      rw [List.length_singleton]
      omega

/-- The cursor never moves back and never leaves the source, also in a step that fails. -/
theorem Loops.onward (loops : Loops rules cursor stops tokens ending) (inside : cursor.Inside) :
    (cursor :: stops).Pairwise Cursor.Onward := by
  induction loops with
  | done => exact List.pairwise_singleton _ _
  | @pass cursor next found stops tokens ending more passes _ ih =>
      have ahead := passes.ahead inside more
      have later := ih (ahead.inside inside)
      refine List.pairwise_cons.mpr ⟨?_, later⟩
      intro stop member
      rcases List.mem_cons.mp member with rfl | behind
      · exact ahead.onward
      · exact ahead.onward.trans ((List.pairwise_cons.mp later).1 stop behind)
  | @fail cursor last offset problem more fails =>
      refine List.pairwise_cons.mpr ⟨?_, List.pairwise_singleton _ _⟩
      intro stop member
      rw [List.mem_singleton.mp member]
      exact fails.onward inside

theorem Loops.yields (loops : Loops rules cursor stops tokens ending) (inside : cursor.Inside) :
    Yields rules cursor.place tokens ending := by
  induction loops with
  | @done cursor ended =>
      rw [Cursor.atEnd_eq inside, List.isEmpty_iff] at ended
      exact .complete (skipTrivia_end ended)
  | @pass cursor next found stops tokens ending more passes loops ih =>
      have ahead := passes.ahead inside more
      have later := ih (ahead.inside inside)
      cases passes with
      | ended skips ended =>
          -- Only trivia were left, and skipping them twice is skipping them once.
          obtain ⟨-, place, -⟩ := skips.place_eq inside
          refine later.of_skipTrivia_eq ?_
          rw [place, skipTrivia_skipTrivia]
      | @token here next found looks skips unended ruled =>
          obtain ⟨within, place, -⟩ := skips.place_eq inside
          obtain ⟨byte, rest, reads, ruling, same, ran, ⟨_, _, _, rfl, -, rfl, stepped⟩ |
              ⟨_, _, _, rfl, -⟩⟩ := @Cursor.ruling_cases rules here within unended
          · cases ruled.symm.trans ran
            rw [place] at reads stepped
            exact .token reads stepped later
          · cases ruled.symm.trans ran
  | @fail cursor last offset problem more fails =>
      cases fails with
      | @failed here last offset problem looks skips unended ruled =>
          obtain ⟨within, place, -⟩ := skips.place_eq inside
          obtain ⟨byte, rest, reads, ruling, same, ran, ⟨_, _, _, rfl, -⟩ |
              ⟨_, _, _, rfl, -, stepped⟩⟩ := @Cursor.ruling_cases rules here within unended
          · cases ruled.symm.trans ran
          · cases ruled.symm.trans ran
            rw [place] at reads stepped
            exact .failed reads stepped

end Run

/-- Every turn of the loops leads forward inside the source, and a step that fails does not lead
back. In front of the end the rules answer, and their looks find a byte; only the look behind a word
may find nothing, and only where the word is all that is left. -/
structure Advances (rules : ScanRules) : Prop where
  turn : ∀ cursor : Cursor, cursor.Inside →
    ∃ turn, cursor.triviaTurn rules = .ok turn ∧ ∀ next, turn = some next → cursor.Ahead next
  step : ∀ cursor : Cursor, cursor.Inside → cursor.atEnd = false → ∀ found next,
    Passes rules cursor found next → cursor.Ahead next
  failure : ∀ cursor : Cursor, cursor.Inside → ∀ offset problem last,
    Fails rules cursor offset problem last → cursor.Onward last
  symbol : ∀ cursor : Cursor, cursor.Inside → cursor.atEnd = false →
    ∃ ruling, (cursor.symbolRule rules).Gives ruling
      fun look => look = none → cursor.EndsInWord rules
  byte : ∀ cursor : Cursor, cursor.Inside → cursor.atEnd = false →
    ∀ rule ∈ Cursor.byteRules rules.strictStrings, ∃ ruling, (rule cursor).Gives ruling (· ≠ none)
  ruling : ∀ cursor : Cursor, cursor.Inside → cursor.atEnd = false →
    ∃ ruling looks, cursor.ruling rules [] = .ok ruling looks ∧ ruling ≠ .passes

theorem advances (rules : ScanRules) : Advances rules where
  turn _ inside := Cursor.triviaTurn_ahead inside
  step _ inside more _ _ passes := passes.ahead inside more
  failure _ inside _ _ _ fails := fails.onward inside
  symbol _ inside _ := ⟨_, Cursor.symbolRule_gives inside rules⟩
  byte cursor inside more rule member := by
    rw [Cursor.atEnd_eq inside] at more
    obtain ⟨byte, rest, reads⟩ := List.exists_cons_of_ne_nil (List.isEmpty_eq_false_iff.mp more)
    exact Cursor.byteRule_gives inside reads member
  ruling cursor inside more := by
    obtain ⟨_, _, -, ruling, looks, ran, ⟨_, _, _, rfl, -⟩ | ⟨_, _, _, rfl, -⟩⟩ :=
      @Cursor.ruling_cases rules cursor inside more
    · exact ⟨_, looks, ran, Ruling.noConfusion⟩
    · exact ⟨_, looks, ran, Ruling.noConfusion⟩

/-- The look behind the only word of a source finds nothing. -/
theorem look_behind_last_word :
    let cursor := Cursor.ofBytes (Utf8.encode "if")
    Skips .default cursor cursor ∧ cursor.atEnd = false ∧
      cursor.ruling .default [] =
        .ok (.token ⟨.symbol .keywordIf, 0⟩ ⟨Utf8.encode "if", 2⟩) [none] :=
  ⟨.returns rfl, rfl, rfl⟩

/-- However the loops run over a source, they take at most one step for each of its bytes, the
cursor moves on inside the source, and they find what the scan finds. -/
theorem run_of_loops {source : Bytes} {stops : List Cursor} {tokens : List (Token Bytes)}
    {ending : ScanEnding} (loops : Loops rules (Cursor.ofBytes source) stops tokens ending) :
    stops.length ≤ source.length ∧ (Cursor.ofBytes source :: stops).Pairwise Cursor.Onward ∧
      run rules source = ⟨tokens, ending⟩ := by
  have inside : (Cursor.ofBytes source).Inside := ⟨Int.le_refl _, Int.natCast_nonneg _⟩
  have bound := loops.length_le inside
  have start : (Cursor.ofBytes source).place = Place.start source := by
    rw [Cursor.place, Cursor.rest_eq inside.natural]
    rfl
  have yields := loops.yields inside
  rw [start] at yields
  refine ⟨?_, loops.onward inside, yields.runFrom_eq⟩
  simp only [Cursor.size, Cursor.ofBytes] at bound
  omega

theorem exists_loops_ofBytes (rules : ScanRules) (source : Bytes) :
    ∃ stops tokens ending, Loops rules (Cursor.ofBytes source) stops tokens ending :=
  exists_loops rules ⟨Int.le_refl _, Int.natCast_nonneg _⟩

end Scan

end LexKit
