import LexKit.Proofs.Numeral
import LexKit.Proofs.Scan.Lexeme

/-!
# Failures of a scan

A scan fails for one of three causes: a byte that begins no token, a second point in a number, or a
string without an end where strings have to have one. A numeral that was scanned can always be read
as a number, so that a malformed one is never reported.
-/

set_option autoImplicit false

namespace LexKit

theorem UnsignedNumeral.isUnsignedDecimal {text : Bytes} (numeral : UnsignedNumeral text) :
    IsUnsignedDecimal Byte.point Byte.isDigit text := by
  rw [isUnsignedDecimal_iff rfl]
  cases numeral with
  | whole nonempty digits => exact .inl ⟨nonempty, digits⟩
  | pointed nonempty digits fraction =>
      exact .inr ⟨_, _, rfl, digits, fraction, List.append_ne_nil_of_left_ne_nil nonempty _⟩

/-- A numeral can be read as a number. -/
theorem UnsignedNumeral.parseFloat?_isSome {text : Bytes} (numeral : UnsignedNumeral text) :
    ∃ value, Number.parseFloat? (Utf8.decodeAscii text) = some value :=
  Option.isSome_iff_exists.mp
    (Number.parseFloat?_decodeAscii_isSome_iff.mpr
      ⟨[], text, rfl, .inl rfl, numeral.isUnsignedDecimal⟩)

namespace Scan

variable {rules : ScanRules}

structure Unexpected (rules : ScanRules) (byte : UInt8) (rest : Bytes) : Prop where
  reads : rest.head? = some byte
  not_blank : Byte.isWhitespace byte = false
  not_letter : Byte.isLetter byte = false
  not_digit : Byte.isDigit byte = false
  not_quote : byte ≠ Byte.quote
  not_commented : ¬rules.markerBytes <+: rest
  unmatched : ∀ entry ∈ rules.symbols.entries, entry.accepts rest = false

inductive Breaks (rules : ScanRules) (here : Place) : Nat → ScanProblem → Prop where
  | unexpected {byte : UInt8} :
      Unexpected rules byte here.rest → Breaks rules here here.offset (.unexpected byte)
  | secondPoint {digits fraction rest : Bytes} :
      digits ≠ [] → (∀ byte ∈ digits, Byte.isDigit byte = true) →
      (∀ byte ∈ fraction, Byte.isDigit byte = true) →
      rules.symbols.match? here.rest = none →
      here.rest = digits ++ Byte.point :: fraction ++ Byte.point :: rest →
      Breaks rules here (here.offset + (digits ++ Byte.point :: fraction).length) .secondPoint
  | unterminated {rest : Bytes} :
      rules.strictStrings = true → Byte.quote ∉ rest → here.rest = Byte.quote :: rest →
      Breaks rules here here.offset .unterminatedString

private theorem breaks_of_string {here : Place} {rest : Bytes} {offset : Nat}
    {problem : ScanProblem} (reads : here.rest = Byte.quote :: rest)
    (failed : string rules.strictStrings here.offset rest = .failed offset problem) :
    Breaks rules here offset problem := by
  unfold string at failed
  dsimp only at failed
  split at failed
  · rename_i ended
    split at failed
    · rename_i strict
      cases failed
      refine .unterminated strict ?_ reads
      intro member
      have open_ := List.dropWhile_eq_nil_iff.mp ended Byte.quote member
      simp at open_
    · cases failed
  · cases failed

private theorem not_failed_numeral {offset at_ : Nat} {text : Bytes} {following : Place}
    {problem : ScanProblem} (unsigned : UnsignedNumeral text)
    (failed : numeral offset text following = .failed at_ problem) : False := by
  obtain ⟨value, parsed⟩ := unsigned.parseFloat?_isSome
  unfold numeral at failed
  rw [parsed] at failed
  cases failed

private theorem breaks_of_number {here : Place} {byte : UInt8} {rest : Bytes} {offset : Nat}
    {problem : ScanProblem} (reads : here.rest = byte :: rest) (digit : Byte.isDigit byte = true)
    (unmatched : rules.symbols.match? here.rest = none)
    (failed : number here = .failed offset problem) : Breaks rules here offset problem := by
  have nonempty := takeWhile_digit_ne reads digit
  have digits : ∀ later ∈ here.rest.takeWhile Byte.isDigit, Byte.isDigit later = true :=
    fun later member => List.mem_takeWhile_imp member
  by_cases unpointed : (here.skipWhile Byte.isDigit).rest.head? = some Byte.point
  · obtain ⟨after, pointed⟩ := List.head?_eq_some_iff.mp unpointed
    have fraction : ∀ later ∈ after.takeWhile Byte.isDigit, Byte.isDigit later = true :=
      fun later member => List.mem_takeWhile_imp member
    have moved := over_point pointed
    rw [number_eq_of_pointed pointed] at failed
    dsimp only at failed
    split at failed
    · rename_i second
      cases failed
      obtain ⟨last, found⟩ := List.head?_eq_some_iff.mp second
      have split := moved.rest_eq
      rw [found] at split
      rw [moved.offset_eq]
      exact .secondPoint nonempty digits fraction unmatched split
    · exact (not_failed_numeral (.pointed nonempty digits fraction) failed).elim
  · rw [number_eq_of_unpointed unpointed] at failed
    exact (not_failed_numeral (.whole nonempty digits) failed).elim

/-- A step fails for one of three causes only, and each says which bytes stand at the place. -/
theorem breaks_of_step {place : Place} {byte : UInt8} {rest : Bytes} {offset : Nat}
    {problem : ScanProblem} (reads : (skipTrivia rules place).rest = byte :: rest)
    (failed : step rules (skipTrivia rules place) byte rest = .failed offset problem) :
    Breaks rules (skipTrivia rules place) offset problem := by
  have blank := not_blank_skipTrivia rules place
  have commented := not_commented_skipTrivia rules place
  unfold step at failed
  split at failed
  · cases failed
  · rename_i unmatched
    split at failed
    · cases failed
    · rename_i letter
      split at failed
      · rename_i quoted
        rw [eq_of_beq quoted] at reads
        exact breaks_of_string reads failed
      · rename_i quoted
        split at failed
        · rename_i digit
          exact breaks_of_number reads digit unmatched failed
        · rename_i digit
          cases failed
          rw [reads] at blank
          refine .unexpected ⟨by rw [reads]; rfl, blank, eq_false_of_ne_true letter,
            eq_false_of_ne_true digit, fun same => quoted (by simp [same]), ?_, ?_⟩
          · intro marked
            rw [List.isPrefixOf_iff_prefix.mpr marked] at commented
            cases commented
          · intro entry member
            have rejected := List.find?_eq_none.mp unmatched entry member
            exact eq_false_of_ne_true rejected

/-- A scan that fails does so where it looked for a token. -/
theorem Yields.breaks {source : Bytes} {origin place : Place} {tokens : List (Token Bytes)}
    {ending : ScanEnding} {offset : Nat} {problem : ScanProblem}
    (derived : Yields rules place tokens ending) (failed : ending = .failed offset problem)
    (started : TokenStart rules origin (skipTrivia rules place))
    (within : Place.Within source place) :
    ∃ here, TokenStart rules origin here ∧ Place.Within source here ∧
      Breaks rules here offset problem := by
  induction derived with
  | complete => cases failed
  | @failed place byte rest offset problem reads broken =>
      cases failed
      obtain ⟨gap, moved, -⟩ := over_skipTrivia rules place
      exact ⟨_, started, within.over moved, breaks_of_step reads broken⟩
  | @token place next byte rest token tokens ending reads taken _ ih =>
      obtain ⟨gap, moved, -⟩ := over_skipTrivia rules place
      obtain ⟨text, -, movedOn, -⟩ := step_spells reads taken
      exact ih failed (.next started reads taken) ((within.over moved).over movedOn)

end Scan

/-! ## What a failure says of the source -/

inductive FailureKind where
  | unexpected
  | secondPoint
  | unterminated
deriving DecidableEq, Repr

/-- What the offset and the message of a failure of a kind say of the source. -/
def FailureKind.Tells (rules : ScanRules) (source : Bytes) (offset : Nat) (message : String) :
    FailureKind → Prop
  | .unexpected =>
      ∃ byte, message = "unexpected character " ++ ScanProblem.describeByte byte ∧
        Scan.Unexpected rules byte (source.drop offset)
  | .secondPoint =>
      message = "second decimal point in numeric literal" ∧
        source[offset]? = some Byte.point ∧
        ∃ first, first < offset ∧
          Scan.TokenStart rules (Place.start source) ⟨first, source.drop first⟩ ∧
          ∃ digits fraction, digits ≠ [] ∧ (∀ byte ∈ digits, Byte.isDigit byte = true) ∧
            (∀ byte ∈ fraction, Byte.isDigit byte = true) ∧
            source.extract first offset = digits ++ Byte.point :: fraction
  | .unterminated =>
      message = "unterminated string literal" ∧ rules.strictStrings = true ∧
        source[offset]? = some Byte.quote ∧ Byte.quote ∉ source.drop (offset + 1)

namespace FailureKind

variable {rules : ScanRules} {source : Bytes}

private theorem unexpected_ne {shown other : String} (differs : other.toList.head? ≠ some 'u') :
    "unexpected character " ++ shown ≠ other := by
  rintro rfl
  apply differs
  rw [String.toList_append]
  rfl

private theorem tells_unique {offset : Nat} {message : String} {kind other : FailureKind}
    (tells : kind.Tells rules source offset message)
    (also : other.Tells rules source offset message) : kind = other := by
  have apart : ∀ {byte}, Scan.Unexpected rules byte (source.drop offset) →
      source[offset]? = some Byte.quote → False := by
    intro byte unexpected quoted
    have reads := unexpected.reads
    rw [List.head?_drop, quoted] at reads
    cases reads
    exact unexpected.not_quote rfl
  have worded : ∀ {byte}, message =
      "unexpected character " ++ ScanProblem.describeByte byte →
        message ≠ "second decimal point in numeric literal" := by
    rintro byte rfl
    exact unexpected_ne (by decide)
  cases kind with
  | unexpected =>
      obtain ⟨byte, shown, unexpected⟩ := tells
      cases other with
      | unexpected => rfl
      | secondPoint => exact (worded shown also.1).elim
      | unterminated => exact (apart unexpected also.2.2.1).elim
  | secondPoint =>
      cases other with
      | unexpected =>
          obtain ⟨byte, shown, unexpected⟩ := also
          exact (worded shown tells.1).elim
      | secondPoint => rfl
      | unterminated =>
          have bytes := tells.2.1.symm.trans also.2.2.1
          cases bytes
  | unterminated =>
      cases other with
      | unexpected =>
          obtain ⟨byte, shown, unexpected⟩ := also
          exact (apart unexpected tells.2.2.1).elim
      | secondPoint =>
          have bytes := also.2.1.symm.trans tells.2.2.1
          cases bytes
      | unterminated => rfl

private theorem tells_of_breaks {here : Place} {offset : Nat} {problem : ScanProblem}
    (started : Scan.TokenStart rules (Place.start source) here)
    (within : Place.Within source here) (breaks : Scan.Breaks rules here offset problem) :
    offset < source.length ∧ ∃ kind, Tells rules source offset problem.message kind := by
  have total := within.length_rest
  have place : here = ⟨here.offset, source.drop here.offset⟩ := by
    rw [← within.rest_eq]
  cases breaks with
  | @unexpected byte unexpected =>
      obtain ⟨rest, split⟩ := List.head?_eq_some_iff.mp unexpected.reads
      have length := congrArg List.length split
      rw [List.length_cons] at length
      rw [within.rest_eq] at unexpected
      exact ⟨by omega, .unexpected, byte, rfl, unexpected⟩
  | @secondPoint digits fraction rest nonempty accepted behind _ split =>
      have lengths := congrArg List.length split
      rw [List.length_append, List.length_cons] at lengths
      have moved : Place.Over here (digits ++ Byte.point :: fraction)
          ⟨here.offset + (digits ++ Byte.point :: fraction).length, Byte.point :: rest⟩ :=
        ⟨split, rfl⟩
      have next := (within.over moved).rest_eq
      have slice := within.extract_eq moved
      have lt : here.offset < here.offset + (digits ++ Byte.point :: fraction).length := by
        rw [List.length_append, List.length_cons]
        omega
      refine ⟨by omega, .secondPoint, rfl, ?_, here.offset, lt, place ▸ started, digits, fraction,
        nonempty, accepted, behind, slice⟩
      rw [← List.head?_drop, ← next]
      rfl
  | @unterminated rest strict unquoted split =>
      have length := congrArg List.length split
      rw [List.length_cons] at length
      have shape := within.rest_eq
      rw [split] at shape
      refine ⟨by omega, .unterminated, rfl, strict, ?_, ?_⟩
      · rw [← List.head?_drop, ← shape]
        rfl
      · rw [← List.drop_drop, ← shape]
        exact unquoted

/-- A failed scan names an offset in the source, and exactly one kind of failure fits it. -/
theorem tells_of_run {offset : Nat} {problem : ScanProblem}
    (failed : (Scan.run rules source).ending = .failed offset problem) :
    offset < source.length ∧ ∃! kind, Tells rules source offset problem.message kind := by
  have derived := Scan.yields_runFrom rules (Place.start source)
  obtain ⟨here, started, within, breaks⟩ :=
    derived.breaks failed .first (Place.Within.start source)
  obtain ⟨inside, kind, tells⟩ := tells_of_breaks started within breaks
  exact ⟨inside, kind, tells, fun other also => tells_unique also tells⟩

/-- The message about a malformed number is never given: the bytes that are collected as a number
always have the form of one. -/
theorem message_ne {offset : Nat} {message : String} {kind : FailureKind}
    (tells : kind.Tells rules source offset message) :
    message ≠ ScanProblem.malformedNumber.message := by
  cases kind with
  | unexpected =>
      obtain ⟨byte, rfl, -⟩ := tells
      exact unexpected_ne (by decide)
  | secondPoint =>
      rw [tells.1]
      decide
  | unterminated =>
      rw [tells.1]
      decide

end FailureKind

end LexKit
