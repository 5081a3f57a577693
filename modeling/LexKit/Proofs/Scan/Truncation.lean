import LexKit.Proofs.Scan.Numeral

/-!
# Truncated sources

A scan that failed at an offset goes through on the bytes in front of it. Up to there both scans
take the same turns, with one exception: where the source was cut, a symbol may fit that did not fit
before, because the byte that forbade it is gone. It reaches to the end then, and is the last token.
-/

set_option autoImplicit false

namespace LexKit

namespace Place

def cut (stop : Nat) (place : Place) : Place :=
  ⟨place.offset, place.rest.take (stop - place.offset)⟩

theorem Over.eq {place first second : Place} {text : Bytes} (left : Over place text first)
    (right : Over place text second) : first = second := by
  have rests := left.rest_eq.symm.trans right.rest_eq
  obtain ⟨offset, rest⟩ := first
  have offsets := left.offset_eq.trans right.offset_eq.symm
  cases List.append_cancel_left rests
  cases offsets
  rfl

/-- What was moved over up to some offset is still there when the bytes behind this offset are cut
away. -/
theorem Over.cut {place next : Place} {text : Bytes} {stop : Nat} (moved : Over place text next)
    (le : next.offset ≤ stop) : Over (place.cut stop) text (next.cut stop) := by
  have offset := moved.offset_eq
  refine ⟨?_, offset⟩
  simp only [Place.cut]
  rw [moved.rest_eq, List.take_append, List.take_of_length_le (by omega), offset]
  congr 2
  omega

theorem skipWhile_cut {accepts : UInt8 → Bool} {place : Place} {stop : Nat}
    (le : (place.skipWhile accepts).offset ≤ stop) :
    (place.cut stop).skipWhile accepts = (place.skipWhile accepts).cut stop ∧
      (place.cut stop).rest.takeWhile accepts = place.rest.takeWhile accepts := by
  have moved := over_skipWhile accepts place
  have offset := moved.offset_eq
  have run : (place.cut stop).rest.takeWhile accepts = place.rest.takeWhile accepts := by
    rw [Place.cut, ← List.take_takeWhile, List.take_of_length_le (by omega)]
  have truncated := over_skipWhile accepts (place.cut stop)
  rw [run] at truncated
  exact ⟨truncated.eq (moved.cut le), run⟩

theorem advance_cut (place : Place) (count stop : Nat) :
    (place.cut stop).advance count = (place.advance count).cut stop := by
  simp only [Place.cut, advance, List.drop_take, Nat.sub_add_eq]

theorem head?_cut {place : Place} {stop : Nat} (lt : place.offset < stop) :
    (place.cut stop).rest.head? = place.rest.head? := by
  rw [Place.cut, List.head?_take, if_neg (by omega)]

theorem cut_rest_prefix (place : Place) (stop : Nat) : (place.cut stop).rest <+: place.rest :=
  List.take_prefix _ _

end Place

namespace Scan

variable {rules : ScanRules}

theorem skipTrivia_cut {place : Place} {stop : Nat} (le : (skipTrivia rules place).offset ≤ stop) :
    skipTrivia rules (place.cut stop) = (skipTrivia rules place).cut stop := by
  fun_induction skipTrivia rules place with
  | case1 place commented ih =>
      obtain ⟨body, moved, -, -⟩ := over_skipComment commented
      obtain ⟨gap, movedOn, -⟩ := over_skipTrivia rules (skipComment rules place)
      have offset := moved.offset_eq
      have offsetOn := movedOn.offset_eq
      rw [List.length_append] at offset
      have marked : rules.markerBytes.isPrefixOf (place.cut stop).rest = true := by
        rw [List.isPrefixOf_iff_prefix, Place.cut, List.prefix_take_iff]
        exact ⟨List.isPrefixOf_iff_prefix.mp commented, by omega⟩
      have skipped : skipComment rules (place.cut stop) = (skipComment rules place).cut stop := by
        rw [skipComment, Place.advance_cut]
        exact (Place.skipWhile_cut (by rw [← Place.skipToLineEnd, ← skipComment]; omega)).1
      rw [skipTrivia, if_pos marked, skipped]
      exact ih le
  | case2 place plain blank ih =>
      obtain ⟨gap, movedOn, -⟩ := over_skipTrivia rules place.skipWhitespace
      have moved : Place.Over place _ place.skipWhitespace :=
        Place.over_skipWhile Byte.isWhitespace place
      have shorter : place.skipWhitespace.rest.length < place.rest.length :=
        Place.skipWhile_length_lt Byte.isWhitespace place blank
      have split := congrArg List.length moved.rest_eq
      rw [List.length_append] at split
      have offset := moved.offset_eq
      have offsetOn := movedOn.offset_eq
      have unmarked : ¬rules.markerBytes.isPrefixOf (place.cut stop).rest = true := by
        rw [List.isPrefixOf_iff_prefix] at plain ⊢
        exact fun marked => plain (marked.trans (place.cut_rest_prefix stop))
      have skipped : (place.cut stop).skipWhitespace = place.skipWhitespace.cut stop :=
        (Place.skipWhile_cut (by rw [← Place.skipWhitespace]; omega)).1
      rw [skipTrivia, if_neg unmarked, Place.head?_cut (by omega), if_pos blank, skipped]
      exact ih le
  | case3 place plain solid =>
      have unmarked : ¬rules.markerBytes.isPrefixOf (place.cut stop).rest = true := by
        rw [List.isPrefixOf_iff_prefix] at plain ⊢
        exact fun marked => plain (marked.trans (place.cut_rest_prefix stop))
      have unblank : ¬(place.cut stop).rest.head?.any Byte.isWhitespace = true := by
        rw [Place.cut, List.head?_take]
        split
        · simp
        · exact solid
      rw [skipTrivia, if_neg unmarked, if_neg unblank]

/-! ## Symbols in front of the cut -/

private theorem accepts_take {entry : SymbolEntry} {rest : Bytes} {count : Nat}
    (accepted : entry.accepts rest = true) (le : entry.literal.length ≤ count) :
    entry.accepts (rest.take count) = true := by
  simp only [SymbolEntry.accepts, Bool.and_eq_true, List.isPrefixOf_iff_prefix] at accepted ⊢
  refine ⟨List.prefix_take_iff.mpr ⟨accepted.1, le⟩, ?_⟩
  cases word : entry.isWord with
  | false => rfl
  | true =>
      have ended := accepted.2
      rw [word] at ended
      simp only [SymbolEntry.endsWord, List.drop_take, List.head?_take] at ended ⊢
      split
      · rfl
      · exact ended

private theorem accepts_of_accepts_take {entry : SymbolEntry} {rest : Bytes} {count : Nat}
    (accepted : entry.accepts (rest.take count) = true) :
    entry.accepts rest = true ∨ entry.literal.length = count := by
  simp only [SymbolEntry.accepts, Bool.and_eq_true, List.isPrefixOf_iff_prefix] at accepted ⊢
  obtain ⟨reads, le⟩ := List.prefix_take_iff.mp accepted.1
  by_cases ends : entry.literal.length = count
  · exact .inr ends
  · refine .inl ⟨reads, ?_⟩
    have ended := accepted.2
    rwa [SymbolEntry.endsWord, List.drop_take, List.head?_take, if_neg (by omega)] at ended

private theorem find?_take {entries : List SymbolEntry} {rest : Bytes} {count : Nat}
    (within : ∀ entry, entries.find? (·.accepts rest) = some entry →
      entry.literal.length ≤ count) :
    entries.find? (·.accepts (rest.take count)) = entries.find? (·.accepts rest) ∨
      ∃ entry, entries.find? (·.accepts (rest.take count)) = some entry ∧
        entry.literal.length = count := by
  induction entries with
  | nil => exact .inl rfl
  | cons entry entries ih =>
      by_cases truncated : entry.accepts (rest.take count) = true
      · rw [List.find?_cons, truncated]
        rcases accepts_of_accepts_take truncated with accepted | ends
        · rw [List.find?_cons, accepted]
          exact .inl rfl
        · exact .inr ⟨entry, rfl, ends⟩
      · have rejected : entry.accepts rest = false := by
          refine eq_false_of_ne_true fun accepted => ?_
          have le := within entry (by rw [List.find?_cons, accepted])
          exact truncated (accepts_take accepted le)
        simp only [List.find?_cons, rejected, eq_false_of_ne_true truncated] at within ⊢
        exact ih within

/-- In front of the cut the same symbol is found, or one that ends at the cut. -/
theorem match?_cut {here : Place} {stop : Nat}
    (within : ∀ entry, rules.symbols.match? here.rest = some entry →
      here.offset + entry.literal.length ≤ stop) :
    rules.symbols.match? (here.cut stop).rest = rules.symbols.match? here.rest ∨
      ∃ entry, rules.symbols.match? (here.cut stop).rest = some entry ∧
        entry.literal.length = stop - here.offset :=
  find?_take fun entry found => by
    have le := within entry found
    omega

/-! ## Turns in front of the cut -/

theorem step_of_symbol {here : Place} {entry : SymbolEntry} (byte : UInt8) (rest : Bytes)
    (found : rules.symbols.match? here.rest = some entry) :
    step rules here byte rest =
      .token ⟨.symbol entry.kind, here.offset⟩ (here.advance entry.literal.length) := by
  rw [step, found]

private theorem identifier_cut {here next : Place} {token : Token Bytes} {stop : Nat}
    (taken : identifier here = .token token next) (le : next.offset ≤ stop) :
    identifier (here.cut stop) = .token token (next.cut stop) := by
  cases taken
  obtain ⟨skipped, run⟩ := Place.skipWhile_cut le
  rw [identifier, skipped, run]
  rfl

private theorem string_cut {offset stop : Nat} {rest : Bytes} {next : Place} {token : Token Bytes}
    (taken : string rules.strictStrings offset rest = .token token next) (le : next.offset ≤ stop)
    (inside : stop < offset + 1 + rest.length) :
    string rules.strictStrings offset (rest.take (stop - (offset + 1))) =
      .token token (next.cut stop) := by
  rcases string_eq_token taken with ⟨-, -, -, rfl⟩ | ⟨text, after, unquoted, rfl, rfl, rfl⟩
  · -- A string without an end reaches to the end of the source, which lies behind the cut.
    dsimp only at le
    omega
  · dsimp only at le
    have split : (text ++ Byte.quote :: after).take (stop - (offset + 1)) =
        text ++ Byte.quote :: after.take (stop - (offset + 1 + text.length + 1)) := by
      rw [List.take_append, List.take_of_length_le (by omega)]
      obtain ⟨more, enough⟩ : ∃ more, stop - (offset + 1) - text.length = more + 1 :=
        ⟨stop - (offset + 1 + text.length + 1), by omega⟩
      rw [enough, List.take_succ_cons]
      congr 3
      omega
    rw [split, string_closed unquoted]
    rfl

private theorem numeral_cut {offset stop : Nat} {text : Bytes} {following next : Place}
    {token : Token Bytes} (taken : numeral offset text following = .token token next) :
    numeral offset text (following.cut stop) = .token token (next.cut stop) := by
  unfold numeral at taken ⊢
  split at taken
  · cases taken
    rfl
  · cases taken

private theorem number_cut {here next : Place} {token : Token Bytes} {stop : Nat}
    (taken : number here = .token token next) (le : next.offset ≤ stop) :
    number (here.cut stop) = .token token (next.cut stop) := by
  by_cases unpointed : (here.skipWhile Byte.isDigit).rest.head? = some Byte.point
  · obtain ⟨after, pointed⟩ := List.head?_eq_some_iff.mp unpointed
    have fraction := Place.over_skipFrom Byte.isDigit
      ((here.skipWhile Byte.isDigit).offset + 1) after
    have later := fraction.offset_eq
    rw [number_eq_of_pointed pointed] at taken
    dsimp only at taken
    split at taken
    · cases taken
    · rename_i single
      have following := numeral_next taken
      rw [following] at le
      dsimp only at later
      have leWhole : (here.skipWhile Byte.isDigit).offset ≤ stop := by omega
      have leFraction : (Place.skipWhile Byte.isDigit
          ⟨(here.skipWhile Byte.isDigit).offset + 1, after⟩).offset ≤ stop := le
      obtain ⟨skipped, run⟩ := Place.skipWhile_cut leWhole
      obtain ⟨skippedOn, runOn⟩ := Place.skipWhile_cut leFraction
      have enough : stop - (here.skipWhile Byte.isDigit).offset =
          stop - ((here.skipWhile Byte.isDigit).offset + 1) + 1 := by
        omega
      have pointedCut : ((here.cut stop).skipWhile Byte.isDigit).rest =
          Byte.point :: after.take (stop - ((here.skipWhile Byte.isDigit).offset + 1)) := by
        rw [skipped, Place.cut, pointed, enough, List.take_succ_cons]
      have offsetCut : ((here.cut stop).skipWhile Byte.isDigit).offset =
          (here.skipWhile Byte.isDigit).offset := by
        rw [skipped]
        rfl
      have fractionCut : Place.skipFrom Byte.isDigit ((here.skipWhile Byte.isDigit).offset + 1)
          (after.take (stop - ((here.skipWhile Byte.isDigit).offset + 1))) =
            (Place.skipFrom Byte.isDigit
              ((here.skipWhile Byte.isDigit).offset + 1) after).cut stop :=
        skippedOn
      have runCut : (after.take (stop - ((here.skipWhile Byte.isDigit).offset + 1))).takeWhile
          Byte.isDigit = after.takeWhile Byte.isDigit := runOn
      rw [number_eq_of_pointed pointedCut]
      dsimp only
      rw [offsetCut, fractionCut, run, runCut, if_neg]
      · exact numeral_cut taken
      · rw [Place.cut, List.head?_take]
        split
        · simp
        · exact single
  · rw [number_eq_of_unpointed unpointed] at taken
    have following := numeral_next taken
    rw [following] at le
    obtain ⟨skipped, run⟩ := Place.skipWhile_cut le
    have unpointedCut : ((here.cut stop).skipWhile Byte.isDigit).rest.head? ≠ some Byte.point := by
      rw [skipped, Place.cut, List.head?_take]
      split
      · simp
      · exact unpointed
    rw [number_eq_of_unpointed unpointedCut, run, skipped]
    exact numeral_cut taken

/-- A turn that ends in front of the cut is taken there too, if the cut hides no symbol and reveals
none. -/
theorem step_cut_of_match? {here next : Place} {byte : UInt8} {rest : Bytes} {token : Token Bytes}
    {stop : Nat} (reads : here.rest = byte :: rest)
    (taken : step rules here byte rest = .token token next)
    (le : next.offset ≤ stop) (inside : stop < here.offset + here.rest.length)
    (same : rules.symbols.match? (here.cut stop).rest = rules.symbols.match? here.rest) :
    step rules (here.cut stop) byte (rest.take (stop - (here.offset + 1))) =
      .token token (next.cut stop) := by
  rw [step, same]
  unfold step at taken
  cases found : rules.symbols.match? here.rest with
  | some entry =>
      rw [found] at taken
      cases taken
      simp only [Place.advance_cut]
      rfl
  | none =>
      rw [found] at taken
      dsimp only at taken ⊢
      split at taken
      · rename_i letter
        rw [if_pos letter]
        exact identifier_cut taken le
      · rename_i letter
        rw [if_neg letter]
        split at taken
        · rename_i quoted
          rw [if_pos quoted]
          refine string_cut taken le ?_
          rw [reads, List.length_cons] at inside
          change stop < here.offset + 1 + rest.length
          omega
        · rename_i quoted
          rw [if_neg quoted]
          split at taken
          · rename_i digit
            rw [if_pos digit]
            exact number_cut taken le
          · cases taken

/-- A turn that ends in front of the cut is taken there too, unless a symbol ends at the cut. -/
private theorem step_cut {here next : Place} {byte : UInt8} {rest : Bytes} {token : Token Bytes}
    {stop : Nat} (reads : here.rest = byte :: rest)
    (taken : step rules here byte rest = .token token next)
    (le : next.offset ≤ stop) (inside : stop < here.offset + here.rest.length) :
    step rules (here.cut stop) byte (rest.take (stop - (here.offset + 1))) =
        .token token (next.cut stop) ∨
      ∃ entry, rules.symbols.match? (here.cut stop).rest = some entry ∧
        entry.literal.length = stop - here.offset := by
  have within : ∀ entry, rules.symbols.match? here.rest = some entry →
      here.offset + entry.literal.length ≤ stop := by
    intro entry found
    rw [step_of_symbol byte rest found] at taken
    cases taken
    exact le
  rcases match?_cut within with same | ends
  · exact .inl (step_cut_of_match? reads taken le inside same)
  · exact .inr ends

/-! ## The truncated scan -/

theorem skipTrivia_end {place : Place} (ended : place.rest = []) :
    (skipTrivia rules place).rest = [] := by
  have le := skipTrivia_length_le rules place
  rw [ended] at le
  exact List.eq_nil_of_length_eq_zero (Nat.le_zero.mp le)

/-- A scan of nothing finds nothing. -/
theorem Yields.eq_of_ended {place : Place} {tokens : List (Token Bytes)} {ending : ScanEnding}
    (derived : Yields rules place tokens ending) (ended : place.rest = []) :
    tokens = [] ∧ ending = .complete := by
  have nothing := @skipTrivia_end rules place ended
  cases derived with
  | complete => exact ⟨rfl, rfl⟩
  | failed reads => cases nothing.symm.trans reads
  | token reads => cases nothing.symm.trans reads

theorem yields_last {place next : Place} {byte : UInt8} {rest : Bytes}
    {token : Token Bytes} (reads : (skipTrivia rules place).rest = byte :: rest)
    (taken : step rules (skipTrivia rules place) byte rest = .token token next)
    (ended : next.rest = []) : Yields rules place [token] .complete :=
  .token reads taken (.complete (skipTrivia_end ended))

theorem cut_reads {here : Place} {byte : UInt8} {rest : Bytes} {stop : Nat}
    (reads : here.rest = byte :: rest) (lt : here.offset < stop) :
    (here.cut stop).rest = byte :: rest.take (stop - (here.offset + 1)) := by
  have enough : stop - here.offset = stop - (here.offset + 1) + 1 := by omega
  rw [Place.cut, reads, enough, List.take_succ_cons]

private theorem yields_symbol {place : Place} {byte : UInt8} {rest : Bytes} {entry : SymbolEntry}
    {stop : Nat} (reads : (skipTrivia rules place).rest = byte :: rest)
    (lt : (skipTrivia rules place).offset < stop)
    (found : rules.symbols.match? ((skipTrivia rules place).cut stop).rest = some entry)
    (ends : entry.literal.length = stop - (skipTrivia rules place).offset) :
    Yields rules (place.cut stop)
      [⟨.symbol entry.kind, (skipTrivia rules place).offset⟩] .complete := by
  have skipped := skipTrivia_cut (Nat.le_of_lt lt)
  have readsCut := cut_reads reads lt
  rw [← skipped] at readsCut found
  have taken := step_of_symbol byte
    (rest.take (stop - ((skipTrivia rules place).offset + 1))) found
  have offset : (skipTrivia rules (place.cut stop)).offset = (skipTrivia rules place).offset := by
    rw [skipped]
    rfl
  rw [offset] at taken
  refine yields_last readsCut taken ?_
  rw [skipped, Place.advance, Place.cut]
  apply List.drop_eq_nil_of_le
  rw [List.length_take]
  omega

private theorem yields_number {place : Place} {digits fraction : Bytes} (nonempty : digits ≠ [])
    (accepted : ∀ byte ∈ digits, Byte.isDigit byte = true)
    (behind : ∀ byte ∈ fraction, Byte.isDigit byte = true)
    (unmatched : rules.symbols.match? (skipTrivia rules place).rest = none)
    (reads : (skipTrivia rules place).rest = digits ++ Byte.point :: fraction) :
    ∃ value, Yields rules place [⟨.number value, (skipTrivia rules place).offset⟩] .complete := by
  have unsigned := UnsignedNumeral.pointed nonempty accepted behind
  obtain ⟨value, parsed⟩ := unsigned.parseFloat?_isSome
  obtain ⟨next, taken, ended⟩ := number_of_unsigned reads unsigned parsed
  obtain ⟨byte, more, rfl⟩ := List.exists_cons_of_ne_nil nonempty
  have digit : Byte.isDigit byte = true := accepted byte List.mem_cons_self
  exact ⟨value, yields_last reads ((step_of_digit digit unmatched).trans taken) ended⟩

/-- A failed turn, truncated: nothing is left, or a symbol or a number that takes all of it. -/
private theorem yields_of_breaks {place : Place} {stop : Nat} {problem : ScanProblem}
    (breaks : Breaks rules (skipTrivia rules place) stop problem) :
    ∃ extra, (∀ token ∈ extra, token.payload? = none) ∧
      Yields rules (place.cut stop) extra .complete := by
  have empty : stop = (skipTrivia rules place).offset →
      Yields rules (place.cut stop) [] .complete := by
    rintro rfl
    refine .complete ?_
    rw [skipTrivia_cut (Nat.le_refl _), Place.cut, Nat.sub_self, List.take_zero]
  cases breaks with
  | unexpected => exact ⟨[], by simp, empty rfl⟩
  | unterminated => exact ⟨[], by simp, empty rfl⟩
  | @secondPoint digits fraction rest nonempty accepted behind unmatched split =>
      have whole : ((skipTrivia rules place).cut ((skipTrivia rules place).offset +
          (digits ++ Byte.point :: fraction).length)).rest = digits ++ Byte.point :: fraction := by
        rw [Place.cut, split, Nat.add_sub_cancel_left, List.take_left]
      have lt : (skipTrivia rules place).offset <
          (skipTrivia rules place).offset + (digits ++ Byte.point :: fraction).length := by
        rw [List.length_append, List.length_cons]
        omega
      generalize (skipTrivia rules place).offset + (digits ++ Byte.point :: fraction).length = stop
        at whole lt ⊢
      have skipped := skipTrivia_cut (Nat.le_of_lt lt)
      have within : ∀ entry, rules.symbols.match? (skipTrivia rules place).rest = some entry →
          (skipTrivia rules place).offset + entry.literal.length ≤ stop := by
        intro entry found
        rw [unmatched] at found
        cases found
      rcases match?_cut within with same | ⟨entry, found, ends⟩
      · have unmatchedCut := same.trans unmatched
        rw [← skipped] at unmatchedCut whole
        obtain ⟨value, yields⟩ := yields_number nonempty accepted behind unmatchedCut whole
        refine ⟨_, ?_, yields⟩
        simp [Token.payload?, Lexeme.payload?]
      · obtain ⟨byte, more, shape⟩ := List.exists_cons_of_ne_nil nonempty
        have reads : (skipTrivia rules place).rest =
            byte :: (more ++ Byte.point :: fraction ++ Byte.point :: rest) := by
          rw [split, shape]
          rfl
        refine ⟨_, ?_, yields_symbol reads lt found ends⟩
        simp [Token.payload?, Lexeme.payload?]

private theorem Yields.failed_bounds {place : Place} {tokens : List (Token Bytes)}
    {ending : ScanEnding} {stop : Nat} {problem : ScanProblem}
    (derived : Yields rules place tokens ending) (failed : ending = .failed stop problem) :
    (skipTrivia rules place).offset ≤ stop ∧ stop < place.offset + place.rest.length := by
  induction derived with
  | complete => cases failed
  | @failed place byte rest offset problem reads broken =>
      cases failed
      obtain ⟨gap, moved, -⟩ := over_skipTrivia rules place
      have total := moved.length_eq
      have length := congrArg List.length reads
      rw [List.length_cons] at length
      cases breaks_of_step reads broken with
      | unexpected => exact ⟨Nat.le_refl _, by omega⟩
      | unterminated => exact ⟨Nat.le_refl _, by omega⟩
      | secondPoint _ _ _ _ split =>
          have lengths := congrArg List.length split
          rw [List.length_append, List.length_cons] at lengths
          exact ⟨Nat.le_add_right _ _, by omega⟩
  | @token place next byte rest token tokens ending reads taken _ ih =>
      obtain ⟨gap, moved, -⟩ := over_skipTrivia rules place
      obtain ⟨text, -, movedOn, -⟩ := step_spells reads taken
      obtain ⟨gapOn, movedBehind, -⟩ := over_skipTrivia rules next
      obtain ⟨le, lt⟩ := ih failed
      have total := moved.length_eq
      have totalOn := movedOn.length_eq
      exact ⟨Nat.le_trans movedOn.offset_le (Nat.le_trans movedBehind.offset_le le), by omega⟩

/-- The bytes in front of a failure scan completely: to tokens found before, and behind them at most
one more, which has no payload. -/
theorem Yields.truncated {place : Place} {tokens : List (Token Bytes)} {ending : ScanEnding}
    {stop : Nat} {problem : ScanProblem} (derived : Yields rules place tokens ending)
    (failed : ending = .failed stop problem) :
    ∃ kept extra, kept <+: tokens ∧ (∀ token ∈ extra, token.payload? = none) ∧
      Yields rules (place.cut stop) (kept ++ extra) .complete := by
  induction derived with
  | complete => cases failed
  | failed reads broken =>
      cases failed
      obtain ⟨extra, payloadless, yields⟩ := yields_of_breaks (breaks_of_step reads broken)
      exact ⟨[], extra, List.nil_prefix, payloadless, yields⟩
  | @token place next byte rest token tokens ending reads taken behind ih =>
      obtain ⟨text, nonempty, movedOn, -⟩ := step_spells reads taken
      obtain ⟨gap, moved, -⟩ := over_skipTrivia rules place
      obtain ⟨gapOn, movedBehind, -⟩ := over_skipTrivia rules next
      obtain ⟨le, inside⟩ := behind.failed_bounds failed
      have total := movedOn.length_eq
      have length := List.length_pos_iff.mpr nonempty
      have offset := movedOn.offset_eq
      have nextLe : next.offset ≤ stop := Nat.le_trans movedBehind.offset_le le
      have lt : (skipTrivia rules place).offset < stop := by omega
      rcases step_cut reads taken nextLe (by omega) with stepped | ⟨entry, found, ends⟩
      · obtain ⟨kept, extra, initial, payloadless, yields⟩ := ih failed
        have readsCut := cut_reads reads lt
        rw [← skipTrivia_cut (Nat.le_of_lt lt)] at readsCut stepped
        refine ⟨token :: kept, extra, ?_, payloadless, .token readsCut stepped yields⟩
        exact List.cons_prefix_cons.mpr ⟨rfl, initial⟩
      · refine ⟨[], _, List.nil_prefix, ?_, yields_symbol reads lt found ends⟩
        simp [Token.payload?, Lexeme.payload?]

end Scan

end LexKit
