import LexKit.Toml.Quoted
import LexKit.Toml.Scalar

/-!
# Keys and values of settings documents

A key is a name or several names joined by points. Arrays may run over several lines and may end in
a comma; inline tables stay on one line and do not. An inline table may use a key to reach into a
table that it is making, but never into a value that it holds already.

Values nest. The readers below are given a bound on the steps that they may take: the number of
characters that remain, and one. A level of nesting takes two steps and two characters, its opening
and its closing one; a member, a name and a comment take one step each, and at least one character.

How deep values may nest is bounded by the room that there is for the outermost one, of which an
array takes less than an inline table. The bound is reached before anything behind it is read.
-/

set_option autoImplicit false

namespace LexKit.Toml

/-- The names of a key: the tables it goes through, and the name in the last of them. -/
structure Key where
  parents : Path
  stem : String
deriving DecidableEq, Repr

def Key.path (key : Key) : Path :=
  key.parents ++ [key.stem]

def isBare (char : Char) : Bool :=
  char.isAlpha || char.isDigit || char == '-' || char == '_'

def beginsKey (char : Char) : Bool :=
  isBare char || char == '"' || char == '\''

namespace Reader

def name : Reader String := do
  let bare ← demand (.run isBare)
  if !bare.isEmpty then return String.ofList bare
  if ← takes "'" then return ← literalString
  if ← takes "\"" then return ← basicString
  stop

/-- Reads a name and those that points join to it, behind the names `parents`. -/
def keyFrom : Nat → Path → Reader Key
  | 0, _ => stop
  | bound + 1, parents => do
      let stem ← name
      skipBlanks
      if ← takes "." then
        skipBlanks
        keyFrom bound (parents ++ [stem])
      else return ⟨parents, stem⟩

def key (bound : Nat) : Reader Key :=
  keyFrom bound []

def skipLines : Nat → Reader Unit
  | 0 => return ()
  | bound + 1 => do
      modify (·.dropWhile fun char => isBlank char || char == '\n')
      if (← next?) == some '#' then
        skipComment
        skipLines bound

end Reader

/-- The room for a value that lies within no other one. -/
def nestingRoom : Nat :=
  986

def arrayRoom : Nat :=
  2

def tableRoom : Nat :=
  3

/-- Adds a member to an inline table. The paths of the values that are fixed already may not be
continued. -/
def Table.addMember? (table : Table) (fixed : List Path) (key : Key) (value : Value) :
    Option Table :=
  if fixed.any (·.isPrefixOf key.path) then none
  else table.alter? false (fun inner => inner.add? key.stem value) key.parents

namespace Reader

def takeRoom (room taken : Nat) : Reader Nat :=
  if room < taken then throw .tooDeep else return room - taken

mutual

def value (room : Nat) : Nat → Reader Value
  | 0 => stop
  | bound + 1 => do
      if let some content ← anyString? then return .text content
      if ← takes "true" then return .boolean true
      if ← takes "false" then return .boolean false
      if ← takes "[" then
        let left ← takeRoom room arrayRoom
        skipLines bound
        return .array (← items left bound [])
      if ← takes "\x7b" then
        let left ← takeRoom room tableRoom
        skipBlanks
        if ← takes "\x7d" then return .table []
        return .table (← members left bound [] [])
      match ← scalar? with
      | some value => return value
      | none => stop

/-- Reads the items of an array up to its end, behind the items `done`, with the last one first. -/
def items (room : Nat) : Nat → List Value → Reader (List Value)
  | 0, _ => stop
  | bound + 1, done => do
      if ← takes "]" then return done
      let item ← value room bound
      skipLines bound
      if ← takes "," then
        skipLines bound
        items room bound (item :: done)
      else
        expect "]"
        return item :: done

def members (room : Nat) : Nat → Table → List Path → Reader Table
  | 0, _, _ => stop
  | bound + 1, table, fixed => do
      let key ← key bound
      expect "="
      skipBlanks
      let value ← value room bound
      match table.addMember? fixed key value with
      | none => stop
      | some extended =>
          skipBlanks
          if ← takes "," then
            skipBlanks
            members room bound extended (if value.isContainer then key.path :: fixed else fixed)
          else
            expect "\x7d"
            return extended

end

def assignment (bound : Nat) : Reader (Key × Value) := do
  let key ← key bound
  expect "="
  skipBlanks
  return (key, ← value nestingRoom bound)

end Reader

end LexKit.Toml
