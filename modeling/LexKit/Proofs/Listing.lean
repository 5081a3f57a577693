import LexKit.Listing
import LexKit.Proofs.Text.Encoding
import LexKit.Proofs.Text.Quoting
import Mathlib.Data.List.Basic

/-!
# What a listing tells

A listing has one line for each token, since no description contains a line feed. A line begins with
the offset, whose digits end at a blank, and what stands behind the two blanks tells the kind and
the text of the token. So two listings are equal only if their tokens are, up to numbers with equal
literals.
-/

set_option autoImplicit false

namespace LexKit

/-! ## Descriptions without line feeds -/

namespace Real

theorem lineFeed_not_mem_toDigits (value : Nat) : '\n' ∉ Nat.toDigits 10 value := by
  intro member
  exact absurd (Nat.isDigit_of_mem_toDigits (by decide) (by decide) member) (by decide)

theorem lineFeed_not_mem_paddedDigits (width value : Nat) : '\n' ∉ paddedDigits width value := by
  simp [paddedDigits, lineFeed_not_mem_toDigits]

theorem lineFeed_not_mem_positional (value places : Nat) : '\n' ∉ positional value places := by
  unfold positional
  split
  · exact lineFeed_not_mem_toDigits value
  · simp [lineFeed_not_mem_toDigits, lineFeed_not_mem_paddedDigits]

theorem trimFraction_subset (chars : List Char) : trimFraction chars ⊆ chars := by
  have kept : chars.reverse.dropWhile (· == '0') ⊆ chars := fun char member =>
    List.mem_reverse.mp ((List.dropWhile_sublist _).subset member)
  unfold trimFraction
  split
  · intro char member
    rw [List.mem_reverse] at member
    split at member
    · exact kept (List.mem_of_mem_tail member)
    · exact kept member
  · exact fun _ member => member

theorem lineFeed_not_mem_layout {digits : List Char} (spares : '\n' ∉ digits) (exponent : Int) :
    '\n' ∉ layout digits exponent := by
  have taken (count : Nat) : '\n' ∉ digits.take count := fun member =>
    spares (List.mem_of_mem_take member)
  have dropped (count : Nat) : '\n' ∉ digits.drop count := fun member =>
    spares (List.mem_of_mem_drop member)
  unfold layout
  split
  · simp [spares]
  · split
    · dsimp only
      split <;> simp [taken, dropped]
    · have behind := dropped 1
      rw [List.drop_one] at behind
      dsimp only
      split <;> split <;> simp [taken, behind, lineFeed_not_mem_paddedDigits]

theorem lineFeed_not_mem_identify (number : Number) : '\n' ∉ number.identify.toList := by
  have signed (negative : Bool) {chars : List Char} (spares : '\n' ∉ chars) :
      '\n' ∉ (String.ofList (if negative then '-' :: chars else chars)).toList := by
    cases negative <;> simp [spares]
  cases number with
  | notANumber negative fraction =>
      change '\n' ∉ "nan".toList
      decide
  | infinite negative => cases negative <;> decide
  | finite negative mantissa exponent =>
      refine signed negative ?_
      split
      · decide
      · refine lineFeed_not_mem_layout ?_ _
        intro member
        have kept := (List.dropWhile_sublist _).subset (List.mem_reverse.mp member)
        exact lineFeed_not_mem_toDigits _ (List.mem_reverse.mp kept)

end Real

theorem Number.lineFeed_not_mem_magnitudeLiteral (magnitude : Real.Magnitude) :
    '\n' ∉ magnitudeLiteral magnitude := by
  have trimmed (value places : Nat) :
      '\n' ∉ Real.trimFraction (Real.positional value places) := fun member =>
    Real.lineFeed_not_mem_positional value places (Real.trimFraction_subset _ member)
  unfold magnitudeLiteral
  split
  · exact Real.lineFeed_not_mem_toDigits _
  · dsimp only
    split
    · exact trimmed _ _
    · exact trimmed _ _

namespace Listing

theorem lineFeed_not_mem_describeNumber (value : Float) : '\n' ∉ (describeNumber value).toList := by
  unfold describeNumber
  dsimp only
  generalize Real.ofBits value.toBits = number
  cases number with
  | notANumber negative fraction =>
      exact Real.lineFeed_not_mem_identify (.notANumber negative fraction)
  | infinite negative => exact Real.lineFeed_not_mem_identify (.infinite negative)
  | finite negative mantissa exponent =>
      have spares := Number.lineFeed_not_mem_magnitudeLiteral ⟨mantissa, exponent⟩
      simp only [Number.literal?, Option.getD_some, String.toList_ofList]
      split
      · simp [spares]
      · exact spares

theorem lineFeed_not_mem_describe (lexeme : Lexeme Bytes) :
    '\n' ∉ (describe lexeme).toList := by
  have enclosed {front inner : String} (before : '\n' ∉ front.toList)
      (within : '\n' ∉ inner.toList) : '\n' ∉ (front ++ inner ++ ")").toList := by
    simp [before, within]
  have quoted (payload : Bytes) : '\n' ∉ (describeText payload).toList := by
    rw [describeText, String.toList_ofList]
    exact Text.lineFeed_not_mem_quoteChars _
  cases lexeme with
  | symbol kind => cases kind <;> decide
  | identifier name => exact enclosed (by decide) (quoted name)
  | number value => exact enclosed (by decide) (lineFeed_not_mem_describeNumber value)
  | string text => exact enclosed (by decide) (quoted text)

/-! ## Lines -/

def rowOf (token : Token Bytes) : String :=
  padLeft offsetWidth (toString token.offset) ++ "  " ++ describe token.lexeme

/-- A row has its offset right-aligned and two blanks behind it. The offset can be read back, since
a description begins with no blank. -/
theorem toList_rowOf (token : Token Bytes) :
    (rowOf token).toList =
      List.replicate (offsetWidth - (Nat.toDigits 10 token.offset).length) ' ' ++
        (Nat.toDigits 10 token.offset ++ ' ' :: ' ' :: (describe token.lexeme).toList) := by
  simp [rowOf, padLeft, ← String.length_toList]

theorem lineFeed_not_mem_rowOf (token : Token Bytes) : '\n' ∉ (rowOf token).toList := by
  simp [toList_rowOf, Real.lineFeed_not_mem_toDigits, lineFeed_not_mem_describe]

theorem toList_ofTokens_cons (token : Token Bytes) (rest : List (Token Bytes)) :
    (ofTokens (token :: rest)).toList = (rowOf token).toList ++ '\n' :: (ofTokens rest).toList := by
  have lines : ofTokens (token :: rest) = rowOf token ++ "\n" ++ ofTokens rest := String.join_cons
  rw [lines, String.toList_append, String.toList_append, List.append_assoc]
  rfl

theorem splitOn_ofTokens (tokens : List (Token Bytes)) :
    (ofTokens tokens).toList.splitOn '\n' =
      tokens.map (fun token => (rowOf token).toList) ++ [[]] := by
  induction tokens with
  | nil => rfl
  | cons token rest ih =>
      rw [toList_ofTokens_cons, List.splitOn_append_cons_self,
        List.splitOn_eq_singleton (lineFeed_not_mem_rowOf token), ih]
      rfl

theorem count_ofTokens (tokens : List (Token Bytes)) :
    (ofTokens tokens).toList.count '\n' = tokens.length := by
  induction tokens with
  | nil => rfl
  | cons token rest ih =>
      rw [toList_ofTokens_cons, List.count_append, List.count_cons_self, ih,
        List.count_eq_zero.mpr (lineFeed_not_mem_rowOf token), Nat.zero_add]
      rfl

/-! ## What tokens a line can stand for -/

/-- The lexemes are equal, or numbers that are described alike. -/
inductive Alike : Lexeme Bytes → Lexeme Bytes → Prop where
  | refl (lexeme : Lexeme Bytes) : Alike lexeme lexeme
  | numbers {first second : Float} :
      describeNumber first = describeNumber second → Alike (.number first) (.number second)

/-- The text that the lexeme carries, if it carries any, is well-formed. -/
def WellEncoded (lexeme : Lexeme Bytes) : Prop :=
  ∀ payload, lexeme.payload? = some payload → Utf8.IsText payload

theorem describeText_inj {first second : Bytes} (left : Utf8.IsText first)
    (right : Utf8.IsText second) (same : describeText first = describeText second) :
    first = second := by
  obtain ⟨text, rfl⟩ := left
  obtain ⟨other, rfl⟩ := right
  have chars := Text.quoteChars_injective (String.ofList_inj.mp same)
  rw [Utf8.decodeLossy_encode, Utf8.decodeLossy_encode] at chars
  rw [String.toList_inj.mp chars]

theorem ofName?_name (kind : TokenKind) : TokenKind.ofName? kind.name = some kind := by
  cases kind <;> decide

def label : Lexeme Bytes → List Char
  | .symbol kind => kind.name.toList
  | .identifier _ => "Identifier".toList
  | .number _ => "NumericLiteral".toList
  | .string _ => "StringLiteral".toList

private theorem takeWhile_front {stop : Char} {front : List Char} (spares : stop ∉ front)
    (behind : List Char) : (front ++ stop :: behind).takeWhile (· != stop) = front := by
  have other : ∀ char ∈ front, (char != stop) = true := fun char member =>
    bne_iff_ne.mpr fun same => spares (same ▸ member)
  rw [List.takeWhile_append_of_pos other, List.takeWhile_cons_of_neg (by simp), List.append_nil]

theorem takeWhile_describe (lexeme : Lexeme Bytes) :
    (describe lexeme).toList.takeWhile (· != '(') = label lexeme := by
  have labelled (front inner : String) (spares : '(' ∉ front.toList) :
      (front ++ "(" ++ inner ++ ")").toList.takeWhile (· != '(') = front.toList := by
    simpa using takeWhile_front spares (inner.toList ++ [')'])
  cases lexeme with
  | symbol kind => cases kind <;> decide
  | identifier name => exact labelled "Identifier" (describeText name) (by decide)
  | number value => exact labelled "NumericLiteral" (describeNumber value) (by decide)
  | string text => exact labelled "StringLiteral" (describeText text) (by decide)

theorem name_ne_label (kind : TokenKind) :
    kind.name.toList ≠ "Identifier".toList ∧ kind.name.toList ≠ "NumericLiteral".toList ∧
      kind.name.toList ≠ "StringLiteral".toList := by
  cases kind <;> decide

/-- A description tells all of a lexeme except the exact number of a literal. Kinds differ in front
of the parenthesis, and payloads within the quotation marks. -/
theorem alike_of_describe {first second : Lexeme Bytes} (left : WellEncoded first)
    (right : WellEncoded second) (same : describe first = describe second) :
    Alike first second := by
  have labels : label first = label second := by
    rw [← takeWhile_describe, same, takeWhile_describe]
  have inner {front one other : String} (same : front ++ one ++ ")" = front ++ other ++ ")") :
      one = other :=
    (String.append_right_inj front).mp ((String.append_left_inj ")").mp same)
  cases first with
  | symbol kind =>
      obtain ⟨identifier, number, string⟩ := name_ne_label kind
      cases second with
      | symbol other =>
          have found : TokenKind.ofName? kind.name = TokenKind.ofName? other.name :=
            congrArg TokenKind.ofName? same
          rw [ofName?_name, ofName?_name] at found
          cases found
          exact .refl _
      | identifier other => exact absurd labels identifier
      | number other => exact absurd labels number
      | string other => exact absurd labels string
  | identifier name =>
      cases second with
      | symbol kind => exact absurd labels.symm (name_ne_label kind).1
      | identifier other =>
          rw [describeText_inj (left _ rfl) (right _ rfl) (inner same)]
          exact .refl _
      | number other => cases labels
      | string other => cases labels
  | number value =>
      cases second with
      | symbol kind => exact absurd labels.symm (name_ne_label kind).2.1
      | identifier other => cases labels
      | number other => exact .numbers (inner same)
      | string other => cases labels
  | string text =>
      cases second with
      | symbol kind => exact absurd labels.symm (name_ne_label kind).2.2
      | identifier other => cases labels
      | number other => cases labels
      | string other =>
          rw [describeText_inj (left _ rfl) (right _ rfl) (inner same)]
          exact .refl _

theorem Alike.describe_eq {first second : Lexeme Bytes} (alike : Alike first second) :
    describe first = describe second := by
  cases alike with
  | refl => rfl
  | numbers same => exact congrArg ("NumericLiteral(" ++ · ++ ")") same

/-! ## Listings -/

private theorem dropWhile_rowOf (token : Token Bytes) :
    (rowOf token).toList.dropWhile (· == ' ') =
      Nat.toDigits 10 token.offset ++ ' ' :: ' ' :: (describe token.lexeme).toList := by
  rw [toList_rowOf, List.dropWhile_append_of_pos (by simp)]
  cases digits : Nat.toDigits 10 token.offset with
  | nil => exact absurd digits Nat.toDigits_ne_nil
  | cons digit rest =>
      have isDigit := Nat.isDigit_of_mem_toDigits (by decide) (by decide)
        (digits ▸ List.mem_cons_self : digit ∈ Nat.toDigits 10 token.offset)
      refine List.dropWhile_cons_of_neg ?_
      intro blank
      rw [eq_of_beq blank] at isDigit
      exact absurd isDigit (by decide)

/-- The digits of the offset end at the first blank behind them. -/
theorem rowOf_inj {first second : Token Bytes} (same : rowOf first = rowOf second) :
    first.offset = second.offset ∧ describe first.lexeme = describe second.lexeme := by
  have spares (value : Nat) : ' ' ∉ Nat.toDigits 10 value := fun member =>
    absurd (Nat.isDigit_of_mem_toDigits (by decide) (by decide) member) (by decide)
  have behind := congrArg (fun row : String => row.toList.dropWhile (· == ' ')) same
  simp only [dropWhile_rowOf] at behind
  have digits := congrArg (List.takeWhile (· != ' ')) behind
  rw [takeWhile_front (spares _), takeWhile_front (spares _)] at digits
  rw [digits] at behind
  have described := List.cons.inj (List.cons.inj (List.append_cancel_left behind)).2
  refine ⟨?_, String.toList_inj.mp described.2⟩
  have offsets := congrArg (Nat.ofDigitChars 10 · 0) digits
  simpa only [Nat.ofDigitChars_toDigits (by decide : 1 < 10) (by decide)] using offsets

/-- The tokens stand at the same offset, and they are equal or numbers that are described alike. -/
def AlikeAt (first second : Token Bytes) : Prop :=
  first.offset = second.offset ∧ Alike first.lexeme second.lexeme

/-- Two listings are equal if and only if their tokens are alike, one by one. No description reaches
into the next line, so the lines can be told apart. -/
theorem ofTokens_eq_iff {first second : List (Token Bytes)}
    (left : ∀ token ∈ first, WellEncoded token.lexeme)
    (right : ∀ token ∈ second, WellEncoded token.lexeme) :
    ofTokens first = ofTokens second ↔ List.Forall₂ AlikeAt first second := by
  constructor
  · intro same
    have rows := congrArg (fun listing : String => listing.toList.splitOn '\n') same
    simp only [splitOn_ofTokens] at rows
    replace rows := List.append_cancel_right rows
    clear same
    induction first generalizing second with
    | nil =>
        cases second with
        | nil => exact .nil
        | cons other others => cases rows
    | cons token rest ih =>
        cases second with
        | nil => cases rows
        | cons other others =>
            obtain ⟨row, rows⟩ := List.cons.inj rows
            obtain ⟨offset, described⟩ := rowOf_inj (String.toList_inj.mp row)
            refine .cons ⟨offset, ?_⟩ (ih ?_ ?_ rows)
            · exact alike_of_describe (left token List.mem_cons_self)
                (right other List.mem_cons_self) described
            · exact fun later member => left later (List.mem_cons_of_mem token member)
            · exact fun later member => right later (List.mem_cons_of_mem other member)
  · intro alike
    clear left right
    induction alike with
    | nil => rfl
    | @cons token other rest others same _ ih =>
        obtain ⟨offset, lexeme⟩ := same
        have row : rowOf token = rowOf other := by
          rw [rowOf, rowOf, offset, lexeme.describe_eq]
        apply String.toList_inj.mp
        rw [toList_ofTokens_cons, toList_ofTokens_cons, row, ih]

/-- A listing has one line for each token, in order, and ends with the last of them. Two listings of
tokens with well-formed texts are equal if and only if the tokens are, but for numbers that are
described alike. -/
theorem ofTokens_unambiguous :
    (∀ tokens : List (Token Bytes),
      (ofTokens tokens).toList.splitOn '\n' =
        tokens.map (fun token => (rowOf token).toList) ++ [[]] ∧
      (ofTokens tokens).toList.count '\n' = tokens.length) ∧
    ∀ first second : List (Token Bytes), (∀ token ∈ first, WellEncoded token.lexeme) →
      (∀ token ∈ second, WellEncoded token.lexeme) →
        (ofTokens first = ofTokens second ↔ List.Forall₂ AlikeAt first second) :=
  ⟨fun tokens => ⟨splitOn_ofTokens tokens, count_ofTokens tokens⟩,
    fun _ _ left right => ofTokens_eq_iff left right⟩

/-- A string that reads like the end of a shorter string with another token behind it. -/
def forgedTokens : List (Token Bytes) :=
  [⟨.string (Utf8.encode "x')\n     9  ASSIGN"), 1234567⟩]

def genuineTokens : List (Token Bytes) :=
  [⟨.string (Utf8.encode "x"), 1234567⟩, ⟨.symbol .assign, 9⟩]

theorem ofTokens_unambiguous_forged :
    (ofTokens forgedTokens).toList.count '\n' = 1 ∧
      ofTokens forgedTokens ≠ ofTokens genuineTokens := by
  obtain ⟨lines, alike⟩ := ofTokens_unambiguous
  refine ⟨(lines forgedTokens).2, ?_⟩
  have forged : ∀ token ∈ forgedTokens, WellEncoded token.lexeme := by
    intro token member payload carried
    rw [List.mem_singleton.mp member] at carried
    exact ⟨_, Option.some.inj carried⟩
  have genuine : ∀ token ∈ genuineTokens, WellEncoded token.lexeme := by
    intro token member payload carried
    rcases List.mem_cons.mp member with rfl | member
    · exact ⟨_, Option.some.inj carried⟩
    · rw [List.mem_singleton.mp member] at carried
      cases carried
  intro same
  cases (alike forgedTokens genuineTokens forged genuine).mp same with
  | cons _ rest => cases rest

end Listing

end LexKit
