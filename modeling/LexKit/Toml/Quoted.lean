import LexKit.Toml.Reader

/-!
# Quoted strings of settings documents

Basic strings stand between double quotes and know escapes; literal strings stand between
apostrophes and know none. Either kind may run over several lines between triple delimiters. A line
feed right after the opening delimiter does not count then, and up to two more delimiters before the
closing ones do.
-/

set_option autoImplicit false

namespace LexKit.Toml

/-- Where the reading of a basic string stands between two characters. -/
inductive Standing where
  /-- In the text. While `skipping`, blanks and line feeds are passed over. -/
  | text (skipping : Bool)
  /-- After a backslash. -/
  | escape
  /-- After a backslash and blanks, which a line feed must follow. -/
  | lineEnd
  /-- In a character code with `missing` digits to come; `value` is that of the digits read. -/
  | code (missing value : Nat)
deriving DecidableEq, Repr

def hexValue? (char : Char) : Option Nat :=
  if '0' ≤ char ∧ char ≤ '9' then some (char.toNat - '0'.toNat)
  else if 'a' ≤ char ∧ char ≤ 'f' then some (char.toNat - 'a'.toNat + 10)
  else if 'A' ≤ char ∧ char ≤ 'F' then some (char.toNat - 'A'.toNat + 10)
  else none

/-- The character of a code that is neither a surrogate nor too large. -/
def charOfCode? (code : Nat) : Option Char :=
  if code.isValidChar then some (Char.ofNat code) else none

def escapes : List (Char × Char) :=
  [('b', '\x08'), ('t', '\t'), ('n', '\n'), ('f', '\x0C'), ('r', '\r'), ('"', '"'), ('\\', '\\')]

/-- Reads the character after a backslash: the character it stands for, if any, and the new
standing. -/
def readEscape (multiline : Bool) (char : Char) : Except Problem (List Char × Standing) :=
  match escapes.lookup char with
  | some meaning => .ok ([meaning], .text false)
  | none =>
      if char = 'u' then .ok ([], .code 4 0)
      else if char = 'U' then .ok ([], .code 8 0)
      else if multiline ∧ isBlank char then .ok ([], .lineEnd)
      else if multiline ∧ char = '\n' then .ok ([], .text true)
      else .error .malformed

/-- Reads one character that does not close the string: what it adds, and the new standing. -/
def Standing.read (multiline : Bool) (char : Char) :
    Standing → Except Problem (List Char × Standing)
  | .text skipping =>
      if skipping ∧ (isBlank char ∨ char = '\n') then .ok ([], .text true)
      else if char = '\\' then .ok ([], .escape)
      else if isForbidden char ∧ ¬(multiline ∧ char = '\n') then .error .malformed
      else .ok ([char], .text false)
  | .escape => readEscape multiline char
  | .lineEnd =>
      if isBlank char then .ok ([], .lineEnd)
      else if char = '\n' then .ok ([], .text true)
      else .error .malformed
  | .code missing value =>
      match hexValue? char with
      | none => .error .malformed
      | some digit =>
          let extended := value * 16 + digit
          if missing ≤ 1 then
            match charOfCode? extended with
            | some meaning => .ok ([meaning], .text false)
            | none => .error .malformed
          else .ok ([], .code (missing - 1) extended)

def Standing.isText : Standing → Bool
  | .text _ => true
  | _ => false

/-- Reads a basic string from `standing` on, up to and with its closing delimiter, behind the
characters `done` (the last one first). -/
def basicFrom (multiline : Bool) (closing : List Char) (done : List Char) (standing : Standing) :
    List Char → Except Problem (List Char × List Char)
  | [] => .error .malformed
  | char :: rest =>
      if standing.isText ∧ closing.isPrefixOf (char :: rest) then
        .ok (done.reverse, (char :: rest).drop closing.length)
      else
        match standing.read multiline char with
        | .error problem => .error problem
        | .ok (added, next) => basicFrom multiline closing (added.reverse ++ done) next rest

def literalFrom (multiline : Bool) (closing : List Char) (done : List Char) :
    List Char → Except Problem (List Char × List Char)
  | [] => .error .malformed
  | char :: rest =>
      if closing.isPrefixOf (char :: rest) then
        .ok (done.reverse, (char :: rest).drop closing.length)
      else if isForbidden char ∧ ¬(multiline ∧ char = '\n') then .error .malformed
      else literalFrom multiline closing (char :: done) rest

namespace Reader

def basicString : Reader String := do
  let content ← basicFrom false ['"'] [] (.text false)
  return String.ofList content

def literalString : Reader String := do
  let content ← literalFrom false ['\''] []
  return String.ofList content

/-- Takes a delimiter that still belongs to a string's content, if there is one. -/
def spareDelimiter (delimiter : String) : Reader String := do
  return if ← takes delimiter then delimiter else ""

/-- Reads a string over several lines whose opening delimiter was taken. -/
def longString (content : Reader (List Char)) (delimiter : String) : Reader String := do
  discard (takes "\n")
  let inner ← content
  let first ← spareDelimiter delimiter
  let second ← if first.isEmpty then pure "" else spareDelimiter delimiter
  return String.ofList inner ++ first ++ second

def anyString? : Reader (Option String) := do
  if ← takes "\"\"\"" then
    return some (← longString (basicFrom true ['"', '"', '"'] [] (.text false)) "\"")
  if ← takes "\"" then
    return some (← basicString)
  if ← takes "'''" then
    return some (← longString (literalFrom true ['\'', '\'', '\''] []) "'")
  if ← takes "'" then
    return some (← literalString)
  return none

end Reader

end LexKit.Toml
