import LexKit.Proofs.Running
import LexKit.Proofs.Scan.Lexeme
import LexKit.Proofs.Symbol.Matching
import LexKit.Scan.Rule

/-!
# The answers of the rules

In front of the end of the source, the rules answer what a step of the scan gives. Every look at the
byte where the cursor stands finds one. Only the look behind a word may find nothing, and it does so
where the word is all that is left.
-/

set_option autoImplicit false

namespace LexKit

open Running

namespace LookM

variable {α β : Type} {action : LookM α} {result : α} {seen : Option UInt8 → Prop}

/-- Whatever was looked at before, the action gives the result, and `seen` holds of all that its
looks find. -/
def Gives (action : LookM α) (result : α) (seen : Option UInt8 → Prop) : Prop :=
  ∀ looks, ∃ found, action looks = .ok result (found ++ looks) ∧ ∀ look ∈ found, seen look

theorem gives_pure (result : α) : Gives (pure result) result seen :=
  fun _ => ⟨[], rfl, List.forall_mem_nil _⟩

theorem gives_ofExcept {outcome : Except Fault α} (answered : outcome = .ok result) :
    Gives (MonadExcept.ofExcept outcome) result seen := by
  subst answered
  exact fun _ => ⟨[], rfl, List.forall_mem_nil _⟩

/-- Actions in a row: what is seen in both satisfies the condition if it does so in each. -/
theorem Gives.bind {next : α → LookM β} {last : β} (first : Gives action result seen)
    (second : Gives (next result) last seen) : Gives (action >>= next) last seen := by
  intro looks
  obtain ⟨found, ran, seenFirst⟩ := first looks
  obtain ⟨more, ranOn, seenSecond⟩ := second (found ++ looks)
  refine ⟨more ++ found, ?_, List.forall_mem_append.mpr ⟨seenSecond, seenFirst⟩⟩
  rw [run_bind, ran]
  dsimp only
  rw [ranOn, List.append_assoc]

theorem Gives.mono {other : Option UInt8 → Prop} (gives : Gives action result seen)
    (weaker : ∀ look, seen look → other look) : Gives action result other := by
  intro looks
  obtain ⟨found, ran, held⟩ := gives looks
  exact ⟨found, ran, fun look member => weaker look (held look member)⟩

end LookM

namespace Cursor

structure Inside (cursor : Cursor) : Prop where
  natural : 0 ≤ cursor.offset
  le : cursor.offset ≤ cursor.size

/-- `next` reads the same bytes, further on. -/
structure Ahead (cursor next : Cursor) : Prop where
  bytes_eq : next.bytes = cursor.bytes
  lt : cursor.offset < next.offset
  le : next.offset ≤ next.size

/-- `next` reads the same bytes, from the same offset or further on. -/
structure Onward (cursor next : Cursor) : Prop where
  bytes_eq : next.bytes = cursor.bytes
  le_offset : cursor.offset ≤ next.offset
  le : next.offset ≤ next.size

def EndsInWord (rules : ScanRules) (cursor : Cursor) : Prop :=
  ∃ entry ∈ rules.symbols.entries, entry.isWord = true ∧ cursor.rest = entry.literal

/-! ## Moving over what is read -/

def behind (cursor : Cursor) (count : Nat) : Cursor :=
  { cursor with offset := cursor.offset + count }

def place (cursor : Cursor) : Place :=
  ⟨cursor.offset.toNat, cursor.rest⟩

variable {cursor : Cursor}

theorem Inside.length_rest (inside : cursor.Inside) :
    cursor.offset + cursor.rest.length = cursor.size := by
  obtain ⟨natural, le⟩ := inside
  rw [rest_eq natural, List.length_drop]
  simp only [size] at le ⊢
  omega

theorem Inside.behind (inside : cursor.Inside) {text after : Bytes}
    (reads : cursor.rest = text ++ after) :
    (cursor.behind text.length).Inside ∧ (cursor.behind text.length).rest = after := by
  have total := inside.length_rest
  rw [reads, List.length_append] at total
  have natural : 0 ≤ (cursor.behind text.length).offset :=
    Int.add_nonneg inside.natural (Int.natCast_nonneg _)
  refine ⟨⟨natural, ?_⟩, ?_⟩
  · simp only [Cursor.behind, size] at total ⊢
    omega
  · have moved : (cursor.behind text.length).offset.toNat = cursor.offset.toNat + text.length := by
      have := inside.natural
      simp only [Cursor.behind]
      omega
    rw [rest_eq natural, moved, ← List.drop_drop]
    change (cursor.bytes.drop cursor.offset.toNat).drop text.length = after
    rw [← rest_eq inside.natural, reads, List.drop_left]

theorem onward_self (inside : cursor.Inside) : cursor.Onward cursor :=
  ⟨rfl, Int.le_refl _, inside.le⟩

theorem onward_behind (inside : cursor.Inside) {text after : Bytes}
    (reads : cursor.rest = text ++ after) : cursor.Onward (cursor.behind text.length) :=
  ⟨rfl, Int.le_add_of_nonneg_right (Int.natCast_nonneg _), (inside.behind reads).1.le⟩

theorem behind_behind (first second : Nat) :
    (cursor.behind first).behind second = cursor.behind (first + second) := by
  simp [behind, Int.add_assoc]

theorem place_behind (inside : cursor.Inside) {text : Bytes} {next : Place}
    (moved : Place.Over cursor.place text next) :
    (cursor.behind text.length).place = next ∧
      cursor.behind text.length = { cursor with offset := next.offset } := by
  obtain ⟨rest_eq, offset_eq⟩ := moved
  obtain ⟨-, reads⟩ := inside.behind rest_eq
  have natural := inside.natural
  have offset : (next.offset : Int) = cursor.offset + text.length := by
    simp only [place] at offset_eq
    omega
  refine ⟨?_, ?_⟩
  · rw [place, reads, behind, ← offset, Int.toNat_natCast]
  · rw [behind, offset]

theorem atEnd_eq (inside : cursor.Inside) : cursor.atEnd = cursor.rest.isEmpty := by
  have total := inside.length_rest
  rw [Bool.eq_iff_iff, atEnd, decide_eq_true_eq, List.isEmpty_iff, ← List.length_eq_zero_iff]
  omega

theorem look_eq (natural : 0 ≤ cursor.offset) (ahead : Nat) (looks : List (Option UInt8)) :
    cursor.look ahead looks =
      .ok cursor.bytes[cursor.offset.toNat + ahead]?
        (cursor.bytes[cursor.offset.toNat + ahead]? :: looks) := by
  rw [look, peek_eq natural]
  rfl

/-- The look at the byte where the cursor stands. -/
theorem look_gives (inside : cursor.Inside) {byte : UInt8} {rest : Bytes}
    (reads : cursor.rest = byte :: rest) : (cursor.look 0).Gives (some byte) (· ≠ none) := by
  have stands : cursor.bytes[cursor.offset.toNat + 0]? = some byte := by
    rw [← head_drop_rest inside.natural, reads]
    rfl
  intro looks
  refine ⟨[some byte], ?_, by simp⟩
  have looked := look_eq inside.natural 0 looks
  rwa [stands] at looked

theorem advance_eq (inside : cursor.Inside) {text after : Bytes}
    (reads : cursor.rest = text ++ after) :
    cursor.advance text.length = cursor.behind text.length := by
  have le := (inside.behind reads).1.le
  simp only [Cursor.behind, size] at le
  rw [advance, behind, size]
  congr 1
  omega

theorem skipWhile_eq (inside : cursor.Inside) (byteClass : ByteClass) :
    cursor.skipWhile byteClass =
      .ok (cursor.behind (cursor.rest.takeWhile byteClass.accepts).length) := by
  have upcoming : cursor.upcoming = .ok cursor.rest := by
    rw [upcoming, if_pos inside.natural, rest_eq inside.natural]
  rw [skipWhile, upcoming]
  rfl

theorem skipToLineEnd_eq (inside : cursor.Inside) :
    cursor.skipToLineEnd =
      cursor.behind (cursor.rest.takeWhile (· != Byte.lineFeed)).length := by
  obtain ⟨natural, le⟩ := inside
  have bound : sliceBound cursor.size cursor.offset = cursor.offset.toNat := by
    rw [sliceBound, if_neg (Int.not_lt.mpr natural)]
    omega
  rw [skipToLineEnd, behind, rest, bound]
  congr 1
  omega

theorem slice_behind (inside : cursor.Inside) {text after : Bytes}
    (reads : cursor.rest = text ++ after) :
    (cursor.behind text.length).slice cursor.offset = text := by
  have natural := inside.natural
  have total := inside.length_rest
  rw [reads, List.length_append] at total
  have bytes : (cursor.behind text.length).bytes = cursor.bytes := rfl
  have first : sliceBound cursor.size cursor.offset = cursor.offset.toNat := by
    rw [sliceBound, if_neg (Int.not_lt.mpr natural)]
    omega
  have last : sliceBound cursor.size (cursor.behind text.length).offset =
      cursor.offset.toNat + text.length := by
    simp only [behind]
    rw [sliceBound, if_neg (by omega)]
    omega
  rw [slice, size, bytes, ← size, first, last, Nat.add_sub_cancel_left, ← rest_eq natural, reads,
    List.take_left]

/-! ## The answers of the rules -/

end Cursor

/-- What a step of the scan says, at a cursor. A failure leaves the cursor at `last`. -/
def Ruling.ofStep (cursor last : Cursor) : ScanStep → Ruling
  | .token found next => .token found { cursor with offset := next.offset }
  | .failed offset problem => .failed offset problem last

namespace Cursor

open LookM

variable {cursor : Cursor} {byte : UInt8} {rest : Bytes}

/-- Where a look behind a word finds nothing, the word is all that is left. -/
theorem acceptsBy_gives (inside : cursor.Inside) {entry : SymbolEntry}
    (nonempty : entry.literal ≠ []) :
    (cursor.acceptsBy cursor.look entry).Gives (entry.accepts cursor.rest)
      fun look => look = none → entry.isWord = true ∧ cursor.rest = entry.literal := by
  have natural := inside.natural
  have behind := head_drop_rest natural entry.literal.length
  rw [acceptsBy, startsWith_eq natural nonempty, SymbolEntry.accepts, SymbolEntry.endsWord, behind]
  cases starts : entry.literal.isPrefixOf cursor.rest with
  | false => exact gives_pure _
  | true =>
      cases word : entry.isWord with
      | false => exact gives_pure _
      | true =>
          intro looks
          refine ⟨[cursor.bytes[cursor.offset.toNat + entry.literal.length]?], ?_, ?_⟩
          · simp only [Bool.not_true, Bool.false_eq_true, ↓reduceIte, run_bind, look_eq natural]
            cases cursor.bytes[cursor.offset.toNat + entry.literal.length]? <;> rfl
          · intro look member nothing
            rw [List.mem_singleton.mp member, ← behind, List.head?_eq_none_iff,
              List.drop_eq_nil_iff] at nothing
            exact ⟨rfl, ((List.isPrefixOf_iff_prefix.mp starts).eq_of_length_le nothing).symm⟩

private theorem firstAcceptedBy_gives (inside : cursor.Inside) {entries : List SymbolEntry}
    (nonempty : ∀ entry ∈ entries, entry.literal ≠ []) :
    (cursor.firstAcceptedBy cursor.look entries).Gives (entries.find? (·.accepts cursor.rest))
      fun look => look = none →
        ∃ entry ∈ entries, entry.isWord = true ∧ cursor.rest = entry.literal := by
  induction entries with
  | nil => exact gives_pure _
  | cons entry others ih =>
      obtain ⟨own, nonempty⟩ := List.forall_mem_cons.mp nonempty
      rw [firstAcceptedBy, List.find?_cons]
      refine ((acceptsBy_gives inside own).mono ?_).bind ?_
      · intro look held nothing
        exact ⟨entry, List.mem_cons_self, held nothing⟩
      · cases entry.accepts cursor.rest with
        | true => exact gives_pure _
        | false =>
            refine (ih nonempty).mono fun look held nothing => ?_
            obtain ⟨other, member, ends⟩ := held nothing
            exact ⟨other, List.mem_cons_of_mem entry member, ends⟩

theorem symbolRule_gives (inside : cursor.Inside) (rules : ScanRules) :
    (cursor.symbolRule rules).Gives
      (match rules.symbols.match? cursor.rest with
        | none => .passes
        | some entry => .token ⟨.symbol entry.kind, cursor.offset.toNat⟩
            (cursor.behind entry.literal.length))
      fun look => look = none → cursor.EndsInWord rules := by
  rw [symbolRule]
  refine (firstAcceptedBy_gives inside rules.symbols.nonempty).bind ?_
  change Gives (match rules.symbols.match? cursor.rest with
    | none => _
    | some entry => _) _ _
  cases found : rules.symbols.match? cursor.rest with
  | none => exact gives_pure _
  | some entry =>
      obtain ⟨-, accepted, -⟩ := SymbolTable.match?_eq_some_iff.mp found
      obtain ⟨after, reads⟩ := SymbolEntry.accepts_prefix accepted
      dsimp only
      rw [advance_eq inside reads.symm]
      exact gives_pure _

theorem identifierRule_gives (inside : cursor.Inside) (reads : cursor.rest = byte :: rest) :
    cursor.identifierRule.Gives
      (if Byte.isLetter byte then .ofStep cursor cursor (Scan.identifier cursor.place)
        else .passes) (· ≠ none) := by
  rw [identifierRule]
  refine (look_gives inside reads).bind ((gives_pure (Byte.isLetter byte)).bind ?_)
  split
  · have moved := Place.over_skipWhile Byte.isIdentifierPart cursor.place
    obtain ⟨-, stands⟩ := place_behind inside moved
    have text := slice_behind inside moved.rest_eq
    refine (gives_ofExcept (skipWhile_eq inside .identifierPart)).bind ?_
    change Gives (pure (Ruling.token ⟨.identifier ((cursor.behind (cursor.place.rest.takeWhile
      Byte.isIdentifierPart).length).slice cursor.offset), _⟩ (cursor.behind _))) _ _
    rw [text]
    have same : Ruling.ofStep cursor cursor (Scan.identifier cursor.place) = _ :=
      congrArg (Ruling.token _) stands.symm
    rw [same]
    exact gives_pure _
  · exact gives_pure _

/-- What the rule does behind an opening quote. -/
private theorem stringRule_of_quote {strictStrings : Bool} {ruling : Ruling}
    (inside : cursor.Inside) (reads : cursor.rest = Byte.quote :: rest)
    (answers : (match (cursor.behind 1).rest.findIdx? (· == Byte.quote) with
      | none =>
          if strictStrings then
            .failed cursor.offset.toNat .unterminatedString (cursor.behind 1)
          else
            .token ⟨.string (({ cursor.behind 1 with offset := (cursor.behind 1).size } :
              Cursor).slice (cursor.behind 1).offset), cursor.offset.toNat⟩
              { cursor.behind 1 with offset := (cursor.behind 1).size }
      | some distance =>
          .token ⟨.string (((cursor.behind 1).behind distance).slice (cursor.behind 1).offset),
            cursor.offset.toNat⟩ (((cursor.behind 1).behind distance).advance 1)) = ruling) :
    (cursor.stringRule strictStrings).Gives ruling (· ≠ none) := by
  have first : cursor.advance 1 = cursor.behind 1 :=
    advance_eq inside (show cursor.rest = [Byte.quote] ++ rest from reads)
  have quoted : (some Byte.quote != some Byte.quote) = false := rfl
  subst answers
  rw [stringRule]
  refine (look_gives inside reads).bind ?_
  rw [quoted, if_neg Bool.false_ne_true, first]
  dsimp only
  cases (cursor.behind 1).rest.findIdx? (· == Byte.quote) with
  | some distance => exact gives_pure _
  | none =>
      cases strictStrings with
      | true => exact gives_pure _
      | false => exact gives_pure _

private theorem stringRule_closed (inside : cursor.Inside) {text after : Bytes}
    (reads : cursor.rest = Byte.quote :: (text ++ Byte.quote :: after))
    (unquoted : Byte.quote ∉ text) (strictStrings : Bool) :
    (cursor.stringRule strictStrings).Gives
      (.ofStep cursor (cursor.behind 1) (Scan.string strictStrings cursor.place.offset
        (text ++ Byte.quote :: after))) (· ≠ none) := by
  have natural := inside.natural
  obtain ⟨within, content⟩ :=
    inside.behind (show cursor.rest = [Byte.quote] ++ (text ++ Byte.quote :: after) from reads)
  rw [List.length_singleton] at within content
  obtain ⟨closing, follows⟩ := within.behind content
  have distance : (cursor.behind 1).rest.findIdx? (· == Byte.quote) = some text.length := by
    have absent : text.findIdx? (· == Byte.quote) = none := by
      rw [List.findIdx?_eq_none_iff]
      intro other member
      exact beq_false_of_ne fun same => unquoted (same ▸ member)
    rw [content, List.findIdx?_append, absent]
    simp [List.findIdx?_cons]
  have last : ((cursor.behind 1).behind text.length).advance 1 =
      ((cursor.behind 1).behind text.length).behind 1 :=
    advance_eq closing
      (show ((cursor.behind 1).behind text.length).rest = [Byte.quote] ++ after from follows)
  have stands : ((cursor.behind 1).behind text.length).behind 1 =
      { cursor with offset := (cursor.place.offset + 1 + text.length + 1 : Nat) } := by
    simp only [behind, place, Cursor.mk.injEq, true_and]
    omega
  refine stringRule_of_quote inside reads ?_
  rw [distance, Scan.string_closed unquoted]
  dsimp only
  rw [slice_behind within content, last, stands]
  rfl

private theorem stringRule_open (inside : cursor.Inside)
    (reads : cursor.rest = Byte.quote :: rest) (unclosed : Byte.quote ∉ rest)
    (strictStrings : Bool) :
    (cursor.stringRule strictStrings).Gives
      (.ofStep cursor (cursor.behind 1) (Scan.string strictStrings cursor.place.offset rest))
      (· ≠ none) := by
  have natural := inside.natural
  have total := inside.length_rest
  rw [reads, List.length_cons] at total
  obtain ⟨within, content⟩ := inside.behind (show cursor.rest = [Byte.quote] ++ rest from reads)
  rw [List.length_singleton] at within content
  have distance : (cursor.behind 1).rest.findIdx? (· == Byte.quote) = none := by
    rw [content, List.findIdx?_eq_none_iff]
    intro other member
    exact beq_false_of_ne fun same => unclosed (same ▸ member)
  have text_eq := slice_behind within (content.trans (List.append_nil rest).symm)
  have last : ({ cursor.behind 1 with offset := (cursor.behind 1).size } : Cursor) =
      (cursor.behind 1).behind rest.length := by
    simp only [behind, size, Cursor.mk.injEq, true_and] at total ⊢
    omega
  have stands : (cursor.behind 1).behind rest.length =
      { cursor with offset := (cursor.place.offset + 1 + rest.length : Nat) } := by
    simp only [behind, place, Cursor.mk.injEq, true_and]
    omega
  have untaken : rest.dropWhile (· != Byte.quote) = [] := by
    rw [List.dropWhile_eq_nil_iff]
    intro other member
    exact bne_iff_ne.mpr fun same => unclosed (same ▸ member)
  have whole : rest.takeWhile (· != Byte.quote) = rest := by
    have split := List.takeWhile_append_dropWhile (p := (· != Byte.quote)) (l := rest)
    rwa [untaken, List.append_nil] at split
  refine stringRule_of_quote inside reads ?_
  rw [distance, Scan.string, untaken, whole]
  dsimp only
  rw [last, text_eq, stands]
  cases strictStrings with
  | true => rfl
  | false => rfl

theorem stringRule_gives (inside : cursor.Inside) (reads : cursor.rest = byte :: rest)
    (strictStrings : Bool) :
    (cursor.stringRule strictStrings).Gives
      (if byte == Byte.quote then
        .ofStep cursor (cursor.behind 1) (Scan.string strictStrings cursor.place.offset rest)
        else .passes) (· ≠ none) := by
  cases quoted : byte == Byte.quote with
  | false =>
      have other : (some byte != some Byte.quote) = !(byte == Byte.quote) := rfl
      rw [stringRule]
      refine (look_gives inside reads).bind ?_
      rw [other, quoted]
      exact gives_pure _
  | true =>
      rw [eq_of_beq quoted] at reads
      by_cases closed : Byte.quote ∈ rest
      · obtain ⟨text, after, rfl, unquoted⟩ := List.eq_append_cons_of_mem closed
        exact stringRule_closed inside reads unquoted strictStrings
      · exact stringRule_open inside reads closed strictStrings

/-! ## Numbers byte by byte -/

private theorem numberEnd_nil (inside : cursor.Inside) (ended : cursor.rest = [])
    (seenPoint : Bool) : (cursor.numberEnd seenPoint).Gives (cursor, false) (· ≠ none) := by
  have stops : cursor.atEnd = true := by
    rw [atEnd_eq inside, ended]
    rfl
  rw [numberEnd, dif_pos stops]
  exact gives_pure _

/-- One turn of the loop over the bytes of a number. -/
private theorem numberEnd_cons {result : Cursor × Bool} (inside : cursor.Inside)
    (reads : cursor.rest = byte :: rest) {seenPoint : Bool}
    (turn : Gives (if byte == Byte.point then
        if seenPoint then pure (cursor, true) else (cursor.behind 1).numberEnd true
      else if Byte.isDigit byte then (cursor.behind 1).numberEnd seenPoint
      else pure (cursor, false)) result (· ≠ none)) :
    (cursor.numberEnd seenPoint).Gives result (· ≠ none) := by
  have more : ¬cursor.atEnd = true := by
    rw [atEnd_eq inside, reads]
    exact Bool.false_ne_true
  have moved : cursor.advance 1 = cursor.behind 1 :=
    advance_eq inside (show cursor.rest = [byte] ++ rest from reads)
  have same : (some byte == some Byte.point) = (byte == Byte.point) := rfl
  rw [numberEnd, dif_neg more, moved]
  refine (look_gives inside reads).bind ?_
  rw [same]
  split
  · rename_i point
    rwa [if_pos point] at turn
  · rename_i point
    rw [if_neg point] at turn
    exact (gives_pure (Byte.isDigit byte)).bind turn

private theorem numberEnd_digits {digits after : Bytes} {result : Cursor × Bool}
    (inside : cursor.Inside) (reads : cursor.rest = digits ++ after)
    (accepted : ∀ byte ∈ digits, Byte.isDigit byte = true) {seenPoint : Bool}
    (behindDigits : ((cursor.behind digits.length).numberEnd seenPoint).Gives result (· ≠ none)) :
    (cursor.numberEnd seenPoint).Gives result (· ≠ none) := by
  induction digits generalizing cursor with
  | nil =>
      have still : cursor.behind 0 = cursor := by simp [behind]
      rwa [List.length_nil, still] at behindDigits
  | cons byte digits ih =>
      have digit := accepted byte List.mem_cons_self
      have unpointed : (byte == Byte.point) = false := by
        refine eq_false_of_ne_true fun point => ?_
        rw [eq_of_beq point] at digit
        cases digit
      obtain ⟨within, follows⟩ :=
        inside.behind (show cursor.rest = [byte] ++ (digits ++ after) from reads)
      refine numberEnd_cons inside reads ?_
      rw [unpointed, digit, if_neg Bool.false_ne_true, if_pos rfl]
      refine ih within follows ?_ ?_
      · intro other member
        exact accepted other (List.mem_cons_of_mem byte member)
      · rwa [behind_behind, Nat.add_comm]

/-- What stands behind digits and is no point ends the number there. -/
private theorem numberEnd_stop (inside : cursor.Inside)
    (digitless : cursor.rest.head?.any Byte.isDigit = false)
    (unpointed : cursor.rest.head? ≠ some Byte.point) (seenPoint : Bool) :
    (cursor.numberEnd seenPoint).Gives (cursor, false) (· ≠ none) := by
  cases reads : cursor.rest with
  | nil => exact numberEnd_nil inside reads seenPoint
  | cons byte rest =>
      rw [reads] at digitless unpointed
      have other : (byte == Byte.point) = false :=
        beq_false_of_ne fun same => unpointed (congrArg some same)
      have stops : Byte.isDigit byte = false := digitless
      refine numberEnd_cons inside reads ?_
      rw [other, stops, if_neg Bool.false_ne_true, if_neg Bool.false_ne_true]
      exact gives_pure _

private theorem numberEnd_unpointed (inside : cursor.Inside)
    (unpointed : (cursor.place.skipWhile Byte.isDigit).rest.head? ≠ some Byte.point) :
    (cursor.numberEnd false).Gives
      (cursor.behind (cursor.place.rest.takeWhile Byte.isDigit).length, false) (· ≠ none) := by
  have whole := Place.over_skipWhile Byte.isDigit cursor.place
  obtain ⟨within, follows⟩ := inside.behind whole.rest_eq
  refine numberEnd_digits inside whole.rest_eq (fun _ => List.mem_takeWhile_imp) ?_
  refine numberEnd_stop within ?_ ?_ false
  · rw [follows]
    exact Place.head_skipWhile Byte.isDigit cursor.place
  · rw [follows]
    exact unpointed

/-- Behind a point the loop passes more digits, and then must not meet another point. -/
private theorem numberEnd_pointed (inside : cursor.Inside)
    (pointed : (cursor.place.skipWhile Byte.isDigit).rest = Byte.point :: rest) :
    let fraction :=
      Place.skipFrom Byte.isDigit ((cursor.place.skipWhile Byte.isDigit).offset + 1) rest
    (cursor.numberEnd false).Gives
      (cursor.behind (cursor.place.rest.takeWhile Byte.isDigit ++
        Byte.point :: rest.takeWhile Byte.isDigit).length,
        decide (fraction.rest.head? = some Byte.point)) (· ≠ none) := by
  have whole := Place.over_skipWhile Byte.isDigit cursor.place
  have fraction := Place.over_skipFrom Byte.isDigit
    ((cursor.place.skipWhile Byte.isDigit).offset + 1) rest
  obtain ⟨within, follows⟩ := inside.behind whole.rest_eq
  rw [pointed] at follows
  obtain ⟨withinPoint, followsPoint⟩ := within.behind (show _ = [Byte.point] ++ rest from follows)
  have stands := followsPoint.trans fraction.rest_eq
  obtain ⟨withinLast, followsLast⟩ := withinPoint.behind stands
  have last : ((cursor.behind (cursor.place.rest.takeWhile Byte.isDigit).length).behind 1).behind
      (rest.takeWhile Byte.isDigit).length =
        cursor.behind (cursor.place.rest.takeWhile Byte.isDigit ++
          Byte.point :: rest.takeWhile Byte.isDigit).length := by
    rw [behind_behind, behind_behind, List.length_append, List.length_cons, Nat.add_comm 1]
  rw [List.length_singleton] at withinLast followsLast withinPoint stands
  refine numberEnd_digits inside whole.rest_eq (fun _ => List.mem_takeWhile_imp) ?_
  refine numberEnd_cons within follows ?_
  rw [if_pos (by rfl), if_neg Bool.false_ne_true]
  refine numberEnd_digits withinPoint stands (fun _ => List.mem_takeWhile_imp) ?_
  rw [last] at withinLast followsLast ⊢
  by_cases point : (Place.skipFrom Byte.isDigit
      ((cursor.place.skipWhile Byte.isDigit).offset + 1) rest).rest.head? = some Byte.point
  · obtain ⟨after, again⟩ := List.head?_eq_some_iff.mp point
    rw [decide_eq_true point]
    refine numberEnd_cons withinLast (followsLast.trans again) ?_
    rw [if_pos (by rfl), if_pos rfl]
    exact gives_pure _
  · rw [decide_eq_false point]
    refine numberEnd_stop withinLast ?_ ?_ true
    · rw [followsLast]
      exact Place.head_skipWhile Byte.isDigit
        ⟨(cursor.place.skipWhile Byte.isDigit).offset + 1, rest⟩
    · rw [followsLast]
      exact point

private theorem numeralRuling_eq (inside : cursor.Inside) {text : Bytes} {next : Place}
    (moved : Place.Over cursor.place text next) :
    cursor.numeralRuling (cursor.behind text.length) =
      .ofStep cursor (cursor.behind text.length)
        (Scan.numeral cursor.place.offset text next) := by
  obtain ⟨-, stands⟩ := place_behind inside moved
  rw [numeralRuling, slice_behind inside moved.rest_eq, Scan.numeral]
  cases Number.parseFloat? (Utf8.decodeAscii text) with
  | none => rfl
  | some value => exact congrArg (Ruling.token _) stands

/-- A number that fails leaves the cursor behind what was read of it. -/
theorem numberRule_gives (inside : cursor.Inside) (reads : cursor.rest = byte :: rest) :
    ∃ last, cursor.Onward last ∧
      cursor.numberRule.Gives
        (if Byte.isDigit byte then .ofStep cursor last (Scan.number cursor.place) else .passes)
        (· ≠ none) := by
  cases digit : Byte.isDigit byte with
  | false =>
      refine ⟨cursor, onward_self inside, ?_⟩
      rw [numberRule]
      refine (look_gives inside reads).bind ((gives_pure (Byte.isDigit byte)).bind ?_)
      rw [digit]
      exact gives_pure _
  | true =>
      have counted : ∀ {result ruling}, (cursor.numberEnd false).Gives result (· ≠ none) →
          ruling = (if result.2 then .failed result.1.offset.toNat .secondPoint result.1
            else cursor.numeralRuling result.1) →
          cursor.numberRule.Gives ruling (· ≠ none) := by
        rintro result _ ended rfl
        rw [numberRule]
        refine (look_gives inside reads).bind ((gives_pure (Byte.isDigit byte)).bind ?_)
        rw [digit]
        exact ended.bind (gives_pure _)
      by_cases unpointed : (cursor.place.skipWhile Byte.isDigit).rest.head? = some Byte.point
      · obtain ⟨after, pointed⟩ := List.head?_eq_some_iff.mp unpointed
        have moved := Scan.over_point pointed
        refine ⟨_, onward_behind inside moved.rest_eq,
          counted (numberEnd_pointed inside pointed) ?_⟩
        rw [Scan.number_eq_of_pointed pointed, if_pos rfl]
        dsimp only
        split
        · rename_i point
          rw [decide_eq_true point, if_pos rfl, ← (place_behind inside moved).1]
          rfl
        · rename_i point
          rw [decide_eq_false point, if_neg Bool.false_ne_true, numeralRuling_eq inside moved]
      · have moved := Place.over_skipWhile Byte.isDigit cursor.place
        refine ⟨_, onward_behind inside moved.rest_eq,
          counted (numberEnd_unpointed inside unpointed) ?_⟩
        rw [Scan.number_eq_of_unpointed unpointed, if_pos rfl, if_neg Bool.false_ne_true,
          numeralRuling_eq inside moved]

theorem unexpectedRule_gives (inside : cursor.Inside) (reads : cursor.rest = byte :: rest) :
    cursor.unexpectedRule.Gives
      (.ofStep cursor cursor (.failed cursor.place.offset (.unexpected byte))) (· ≠ none) := by
  rw [unexpectedRule]
  exact (look_gives inside reads).bind (gives_pure _)

/-! ## The first rule that does not pass -/

variable {seen : Option UInt8 → Prop} {rule : Cursor → LookM Ruling}

private theorem firstRuling_of_passes {ruling : Ruling} {later : List (Cursor → LookM Ruling)}
    (passed : (rule cursor).Gives .passes seen)
    (others : (cursor.firstRuling later).Gives ruling seen) :
    (cursor.firstRuling (rule :: later)).Gives ruling seen := by
  rw [firstRuling]
  exact passed.bind others

private theorem firstRuling_of_step {last : Cursor} {scanned : ScanStep}
    (answered : (rule cursor).Gives (.ofStep cursor last scanned) seen)
    (later : List (Cursor → LookM Ruling)) :
    (cursor.firstRuling (rule :: later)).Gives (.ofStep cursor last scanned) seen := by
  rw [firstRuling]
  refine answered.bind ?_
  cases scanned with
  | token found next => exact gives_pure _
  | failed offset problem => exact gives_pure _

/-- In front of the end, the first rule that does not pass does what a step of the scan does. -/
theorem ruling_gives (inside : cursor.Inside) (reads : cursor.rest = byte :: rest)
    (rules : ScanRules) :
    ∃ last, cursor.Onward last ∧
      (cursor.ruling rules).Gives (.ofStep cursor last (Scan.step rules cursor.place byte rest))
        fun look => look = none → cursor.EndsInWord rules := by
  have same : cursor.place.rest = cursor.rest := rfl
  have sighted : ∀ look : Option UInt8, look ≠ none → look = none → cursor.EndsInWord rules :=
    fun look found nothing => absurd nothing found
  have symbol := symbolRule_gives inside rules
  have identifier := (identifierRule_gives inside reads).mono sighted
  have string := (stringRule_gives inside reads rules.strictStrings).mono sighted
  obtain ⟨behindNumber, onward, number⟩ := numberRule_gives inside reads
  replace number := number.mono sighted
  have unexpected := (unexpectedRule_gives inside reads).mono sighted
  rw [ruling, byteRules, Scan.step, same]
  cases found : rules.symbols.match? cursor.rest with
  | some entry =>
      obtain ⟨-, accepted, -⟩ := SymbolTable.match?_eq_some_iff.mp found
      obtain ⟨-, stands⟩ := place_behind inside
        (@Place.over_advance cursor.place _ (SymbolEntry.accepts_prefix accepted))
      rw [found] at symbol
      dsimp only at symbol
      rw [stands] at symbol
      refine ⟨cursor, onward_self inside, ?_⟩
      exact @firstRuling_of_step _ _ _ _ (.token _ (cursor.place.advance entry.literal.length))
        symbol _
  | none =>
      rw [found] at symbol
      dsimp only
      split
      · rename_i letter
        rw [if_pos letter] at identifier
        exact ⟨cursor, onward_self inside,
          firstRuling_of_passes symbol (firstRuling_of_step identifier _)⟩
      · rename_i letter
        rw [if_neg letter] at identifier
        split
        · rename_i quoted
          rw [if_pos quoted] at string
          exact ⟨_, onward_behind inside (show cursor.rest = [byte] ++ rest from reads),
            firstRuling_of_passes symbol
              (firstRuling_of_passes identifier (firstRuling_of_step string _))⟩
        · rename_i quoted
          rw [if_neg quoted] at string
          split
          · rename_i digit
            rw [if_pos digit] at number
            exact ⟨behindNumber, onward, firstRuling_of_passes symbol
              (firstRuling_of_passes identifier (firstRuling_of_passes string
                (firstRuling_of_step number _)))⟩
          · rename_i digit
            rw [if_neg digit] at number
            exact ⟨cursor, onward_self inside, firstRuling_of_passes symbol
              (firstRuling_of_passes identifier (firstRuling_of_passes string
                (firstRuling_of_passes number (firstRuling_of_step unexpected _))))⟩

/-- The rules that look at the byte where the cursor stands find it. -/
theorem byteRule_gives (inside : cursor.Inside) (reads : cursor.rest = byte :: rest)
    {strictStrings : Bool} (member : rule ∈ byteRules strictStrings) :
    ∃ ruling, (rule cursor).Gives ruling (· ≠ none) := by
  simp only [byteRules, List.mem_cons, List.not_mem_nil, or_false] at member
  rcases member with rfl | rfl | rfl | rfl
  · exact ⟨_, identifierRule_gives inside reads⟩
  · exact ⟨_, stringRule_gives inside reads strictStrings⟩
  · obtain ⟨_, -, gives⟩ := numberRule_gives inside reads
    exact ⟨_, gives⟩
  · exact ⟨_, unexpectedRule_gives inside reads⟩

end Cursor

end LexKit
