import LexKit.Text.Digit
import LexKit.Toml.Reader
import LexKit.Toml.Value

/-!
# Numbers, dates and times of settings documents

A date has four digits for the year and two each for month and day, joined by hyphens; a time may
follow it, and an offset may follow the time. A time may also stand alone. Integers are decimal or
have one of the marks `0x`, `0o` and `0b`. Single underscores may stand between digits.
-/

set_option autoImplicit false

namespace LexKit.Toml

/-- The value of a digit, for letters beyond 9; other characters count as zero. -/
def digitValue (char : Char) : Nat :=
  if char.isDigit then char.toNat - '0'.toNat
  else if char.isAlpha then char.toLower.toNat - 'a'.toNat + 10
  else 0

def valueOfDigits (base : Nat) (digits : List Char) : Nat :=
  digits.foldl (fun value digit => value * base + digitValue digit) 0

namespace Pattern

/-- Fits exactly `count` decimal digits with a value from `low` to `high`. -/
def field : Nat → Nat → Nat → Nat → Pattern Nat
  | 0, low, high, value => do
      guard (low ≤ value ∧ value ≤ high)
      return value
  | count + 1, low, high, value => do
      let digit ← one Char.isDigit
      field count low high (value * 10 + digitValue digit)

/-- A day from 1 to 31, whatever the month. -/
def date : Pattern (Nat × Nat × Nat) := do
  let year ← field 4 0 9999 0
  literal "-"
  let month ← field 2 1 12 0
  literal "-"
  let day ← field 2 1 31 0
  return (year, month, day)

/-- The fraction of a second has at least one digit. -/
def secondFraction : Pattern Unit := do
  literal "."
  discard (one Char.isDigit)
  discard (run Char.isDigit)

def time : Pattern Unit := do
  discard (field 2 0 23 0)
  literal ":"
  discard (field 2 0 59 0)
  literal ":"
  discard (field 2 0 59 0)
  discard (optional secondFraction)

def offset : Pattern Unit :=
  discard (oneOf ['Z', 'z']) <|> do
    discard (oneOf ['+', '-'])
    discard (field 2 0 23 0)
    literal ":"
    discard (field 2 0 59 0)

def moment : Pattern (Nat × Nat × Nat) := do
  let day ← date
  discard (optional do
    discard (oneOf ['T', 't', ' '])
    time
    optional offset)
  return day

def moreDigits (accepts : Char → Bool) : List Char → List Char × List Char
  | '_' :: char :: rest =>
      if accepts char then
        let (digits, behind) := moreDigits accepts rest
        (char :: digits, behind)
      else ([], '_' :: char :: rest)
  | char :: rest =>
      if accepts char then
        let (digits, behind) := moreDigits accepts rest
        (char :: digits, behind)
      else ([], char :: rest)
  | [] => ([], [])

/-- Fits digits with single underscores between them, and gives the digits alone. -/
def digitRun (accepts : Char → Bool) : Pattern (List Char) := do
  let first ← one accepts
  let others ← fun chars => some (moreDigits accepts chars)
  return first :: others

def markedInteger (mark : String) (base : Nat) (accepts : Char → Bool) : Pattern Int := do
  literal mark
  return valueOfDigits base (← digitRun accepts)

def isHexDigit (char : Char) : Bool :=
  char.isDigit || ('a' ≤ char && char ≤ 'f') || ('A' ≤ char && char ≤ 'F')

def basedInteger : Pattern Int :=
  markedInteger "0x" 16 isHexDigit <|>
    markedInteger "0b" 2 (fun char => char == '0' || char == '1') <|>
    markedInteger "0o" 8 (fun char => '0' ≤ char && char ≤ '7')

/-- The digits of a decimal integer; it has no leading zeros. -/
def wholeDigits : Pattern (List Char) := do
  match ← optional (one (· == '0')) with
  | some zero => return [zero]
  | none => digitRun Char.isDigit

def fraction : Pattern Unit := do
  literal "."
  discard (digitRun Char.isDigit)

def exponent : Pattern Unit := do
  discard (oneOf ['e', 'E'])
  discard (optional (oneOf ['+', '-']))
  discard (digitRun Char.isDigit)

structure Decimal where
  negative : Bool
  whole : List Char
  isInteger : Bool

def decimal : Pattern Decimal := do
  let sign ← optional (oneOf ['+', '-'])
  let whole ← wholeDigits
  let fractionPart ← optional fraction
  let exponentPart ← optional exponent
  return ⟨sign == some '-', whole, fractionPart.isNone && exponentPart.isNone⟩

def specialReal : Pattern Unit := do
  discard (optional (oneOf ['+', '-']))
  literal "inf" <|> literal "nan"

end Pattern

namespace Calendar

def isLeapYear (year : Nat) : Bool :=
  year % 4 == 0 && (year % 100 != 0 || year % 400 == 0)

def monthLength (year month : Nat) : Nat :=
  if month == 2 then if isLeapYear year then 29 else 28
  else if month == 4 || month == 6 || month == 9 || month == 11 then 30
  else 31

/-- There is no year zero, and each month has its own length. -/
def hasDay (year month day : Nat) : Bool :=
  year != 0 && day ≤ monthLength year month

end Calendar

namespace Reader

def moment? : Reader (Option Value) := do
  let chars ← get
  match ← attempt Pattern.moment with
  | none => return none
  | some (year, month, day) =>
      unless Calendar.hasDay year month day do stop
      return some (.moment (String.ofList (chars.take (chars.length - (← get).length))))

def number? : Reader (Option Value) := do
  match ← attempt Pattern.basedInteger with
  | some number => return some (.integer number)
  | none =>
      let chars ← get
      match ← attempt Pattern.decimal with
      | none => return none
      | some decimal =>
          if decimal.isInteger then
            if decimal.whole.length > Text.digitLimit then throw .tooManyDigits
            let magnitude : Int := valueOfDigits 10 decimal.whole
            return some (.integer (if decimal.negative then -magnitude else magnitude))
          else
            return some (.real (String.ofList (chars.take (chars.length - (← get).length))))

/-- Reads a date, a time or a number. A date is recognised before the year could pass
for a number. -/
def scalar? : Reader (Option Value) := do
  if let some value ← moment? then return some value
  if let some literal ← attempt (Pattern.taken Pattern.time) then return some (.moment literal)
  if let some value ← number? then return some value
  if let some literal ← attempt (Pattern.taken Pattern.specialReal) then return some (.real literal)
  return none

end Reader

end LexKit.Toml
