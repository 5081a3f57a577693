/-!
# Reading settings documents

Readers take characters from the front of the text that remains. A *pattern* is a reader that may
simply not fit; once a part of a document is known by its beginning, its reader either succeeds or
finds the document malformed.
-/

set_option autoImplicit false

namespace LexKit.Toml

inductive Problem where
  | malformed
  /-- A decimal integer has more digits than are read. -/
  | tooManyDigits
  /-- Arrays and inline tables lie too deep within each other. -/
  | tooDeep
deriving DecidableEq, Repr

abbrev Reader := StateT (List Char) (Except Problem)

abbrev Pattern := StateT (List Char) Option

/-- Control characters other than the tab stand nowhere in a line. -/
def isForbidden (char : Char) : Bool :=
  (char.toNat < 0x20 && char != '\t') || char.toNat == 0x7F

def isBlank (char : Char) : Bool :=
  char == ' ' || char == '\t'

namespace Pattern

def one (accepts : Char → Bool) : Pattern Char
  | [] => none
  | char :: rest => if accepts char then some (char, rest) else none

def oneOf (chars : List Char) : Pattern Char :=
  one chars.contains

def literal (expected : String) : Pattern Unit := fun chars =>
  (expected.toList.isPrefixOf? chars).map ((), ·)

/-- Fits the longest run, which may be empty, of characters that `accepts` holds of. -/
def run (accepts : Char → Bool) : Pattern (List Char) := fun chars =>
  some (chars.takeWhile accepts, chars.dropWhile accepts)

/-- Fits where `pattern` fits, and gives the characters that it took. -/
def taken {α : Type} (pattern : Pattern α) : Pattern String := fun chars =>
  (pattern chars).map fun (_, rest) =>
    (String.ofList (chars.take (chars.length - rest.length)), rest)

end Pattern

namespace Reader

def stop {α : Type} : Reader α :=
  throw .malformed

def attempt {α : Type} (pattern : Pattern α) : Reader (Option α) := fun chars =>
  match pattern chars with
  | some (result, rest) => .ok (some result, rest)
  | none => .ok (none, chars)

def demand {α : Type} (pattern : Pattern α) : Reader α := do
  match ← attempt pattern with
  | some result => return result
  | none => stop

def takes (expected : String) : Reader Bool := do
  return (← attempt (.literal expected)).isSome

def expect (expected : String) : Reader Unit :=
  demand (.literal expected)

/-- The next character stays in place. -/
def next? : Reader (Option Char) := do
  return (← get).head?

def skipBlanks : Reader Unit :=
  modify (·.dropWhile isBlank)

def skipComment : Reader Unit := do
  if ← takes "#" then
    let comment ← demand (.run (· != '\n'))
    if comment.any isForbidden then stop

end Reader

end LexKit.Toml
