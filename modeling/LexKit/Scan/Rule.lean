import LexKit.Cursor
import LexKit.Scan

/-!
# The rules at a cursor

A scan can be run on a cursor that looks at one byte at a time. In each step it skips trivia and
asks its rules, one after the other, until one does not pass. A record of all looks tells afterwards
whether one of them met the end of the source. A rule that fails leaves the cursor where it stopped
reading, which need not be the offset that it reports.
-/

set_option autoImplicit false

namespace LexKit

/-- An action that looks at a source. Its state is what the looks have found so far, the last one
first; a look past the end finds nothing. -/
abbrev LookM := EStateM Fault (List (Option UInt8))

/-- What a rule does at a cursor: it leaves it to the next rule, takes a token, or ends the scan. -/
inductive Ruling where
  | passes
  | token (token : Token Bytes) (next : Cursor)
  | failed (offset : Nat) (problem : ScanProblem) (next : Cursor)

namespace Cursor

def look (cursor : Cursor) (ahead : Int) : LookM (Option UInt8) := do
  let found ← MonadExcept.ofExcept (cursor.peek ahead)
  modify (found :: ·)
  return found

/-- Whether what a look found belongs to a class. Nothing cannot be classified. -/
def classify (accepts : UInt8 → Bool) : Option UInt8 → LookM Bool
  | some byte => return accepts byte
  | none => throw .wrongType

/-! ## Trivia -/

/-- A turn of the loop that skips trivia: it moves over a comment or over whitespace, or returns. -/
def triviaTurn (rules : ScanRules) (cursor : Cursor) : Except Fault (Option Cursor) := do
  if cursor.startsWith rules.markerBytes then
    return some (cursor.advance rules.markerBytes.length).skipToLineEnd
  let skipped ← cursor.skipWhile .whitespace
  return if skipped.offset = cursor.offset then none else some skipped

/-! ## Rules -/

/-- A symbol. The look behind a word may meet the end, which is as good as any other boundary. -/
def symbolRule (rules : ScanRules) (cursor : Cursor) : LookM Ruling := do
  match ← cursor.firstAcceptedBy cursor.look rules.symbols.entries with
  | none => return .passes
  | some entry =>
      return .token ⟨.symbol entry.kind, cursor.offset.toNat⟩ (cursor.advance entry.literal.length)

def identifierRule (cursor : Cursor) : LookM Ruling := do
  if ← classify Byte.isLetter (← cursor.look 0) then
    let next ← MonadExcept.ofExcept (cursor.skipWhile .identifierPart)
    return .token ⟨.identifier (next.slice cursor.offset), cursor.offset.toNat⟩ next
  else
    return .passes

/-- A string. Without a closing quote a strict rule fails at the opening one, with the cursor
behind it. -/
def stringRule (strictStrings : Bool) (cursor : Cursor) : LookM Ruling := do
  if (← cursor.look 0) != some Byte.quote then return .passes
  let content := cursor.advance 1
  match content.rest.findIdx? (· == Byte.quote) with
  | none =>
      if strictStrings then return .failed cursor.offset.toNat .unterminatedString content
      let next : Cursor := { content with offset := content.size }
      return .token ⟨.string (next.slice content.offset), cursor.offset.toNat⟩ next
  | some distance =>
      let closing : Cursor := { content with offset := content.offset + distance }
      return .token ⟨.string (closing.slice content.offset), cursor.offset.toNat⟩
        (closing.advance 1)

theorem lt_of_not_atEnd {cursor : Cursor} (more : ¬cursor.atEnd = true) :
    cursor.offset < cursor.size := by
  rw [atEnd, decide_eq_true_eq] at more
  exact Int.lt_of_not_ge more

/-- Moves over digits and one point, byte by byte. The answer tells whether a second point stopped
it. -/
def numberEnd (cursor : Cursor) (seenPoint : Bool) : LookM (Cursor × Bool) :=
  if _ended : cursor.atEnd = true then return (cursor, false)
  else do
    let found ← cursor.look 0
    if found == some Byte.point then
      if seenPoint then return (cursor, true)
      numberEnd (cursor.advance 1) true
    else if ← classify Byte.isDigit found then
      numberEnd (cursor.advance 1) seenPoint
    else
      return (cursor, false)
termination_by (cursor.size - cursor.offset).toNat
decreasing_by
  all_goals
    have more := lt_of_not_atEnd _ended
    simp only [size, advance] at more ⊢
    omega

def numeralRuling (cursor next : Cursor) : Ruling :=
  match Number.parseFloat? (Utf8.decodeAscii (next.slice cursor.offset)) with
  | none => .failed cursor.offset.toNat .malformedNumber next
  | some value => .token ⟨.number value, cursor.offset.toNat⟩ next

def numberRule (cursor : Cursor) : LookM Ruling := do
  if ← classify Byte.isDigit (← cursor.look 0) then
    let (next, stopped) ← cursor.numberEnd false
    return if stopped then .failed next.offset.toNat .secondPoint next
      else cursor.numeralRuling next
  else
    return .passes

/-- Fails at the byte that no other rule takes. -/
def unexpectedRule (cursor : Cursor) : LookM Ruling := do
  match ← cursor.look 0 with
  | some byte => return .failed cursor.offset.toNat (.unexpected byte) cursor
  | none => throw .wrongType

/-- The rules that begin with a look at the byte where the cursor stands. -/
def byteRules (strictStrings : Bool) : List (Cursor → LookM Ruling) :=
  [identifierRule, stringRule strictStrings, numberRule, unexpectedRule]

def firstRuling (cursor : Cursor) : List (Cursor → LookM Ruling) → LookM Ruling
  | [] => return .passes
  | rule :: later => do
      match ← rule cursor with
      | .passes => firstRuling cursor later
      | ruling => return ruling

def ruling (rules : ScanRules) (cursor : Cursor) : LookM Ruling :=
  cursor.firstRuling (symbolRule rules :: byteRules rules.strictStrings)

end Cursor

end LexKit
