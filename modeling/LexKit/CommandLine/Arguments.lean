import LexKit.Text.Digit
import LexKit.Text.Quoted

/-!
# Command line arguments

The words of a command line are flags, values and the separator `--`, behind which all words are
values. A long flag may be shortened to a beginning that no other flag has, and may carry its value
behind an equals sign. A word that begins with a hyphen is a flag unless it is a hyphen alone, reads
as a negative number, or contains a space.

All words are classified before any takes effect, so an ambiguous flag is noticed first. Words that
find no place are reported last, when nothing else is wrong. Conventions of command lines differ in
what a separator behind an equals sign is worth, and in what letters behind `-h` are.
-/

set_option autoImplicit false

namespace LexKit

inductive Flag where
  | help
  | config
  | comment
  | strictStrings
  | arenaSize
  | debug
deriving DecidableEq, Repr

namespace Flag

def spellings : List (String × Flag) :=
  [("-h", help), ("--help", help), ("--config", config), ("--comment", comment),
    ("--strict-strings", strictStrings), ("--no-strict-strings", strictStrings),
    ("--arena-size", arenaSize), ("--debug", debug)]

def takesValue : Flag → Bool
  | config => true
  | comment => true
  | arenaSize => true
  | _ => false

def label (flag : Flag) : String :=
  "/".intercalate ((spellings.filter (·.2 = flag)).map (·.1))

end Flag

inductive UsageFault where
  | ambiguous (word : String) (candidates : List String)
  | missingValue (flag : Flag)
  | unwantedValue (flag : Flag) (value : String)
  | unrecognized (words : List String)
deriving DecidableEq, Repr

namespace UsageFault

def message : UsageFault → String
  | ambiguous word candidates =>
      "ambiguous option: " ++ word ++ " could match " ++ ", ".intercalate candidates
  | missingValue flag => "argument " ++ flag.label ++ ": expected one argument"
  | unwantedValue flag value =>
      "argument " ++ flag.label ++ ": ignored explicit argument " ++ Text.quote value
  | unrecognized words => "unrecognized arguments: " ++ " ".intercalate words

end UsageFault

structure Convention where
  /-- A bare separator behind an equals sign is a value like any other; else it is no value. -/
  keepsSeparator : Bool
  /-- Letters behind `-h` are looked at one by one, and help is given as soon as one of them does
  not fit; else they are a value, which `-h` does not take. -/
  helpsFirst : Bool
deriving DecidableEq, Repr

namespace Convention

def earlier : Convention :=
  ⟨false, false⟩

def later : Convention :=
  ⟨true, true⟩

end Convention

/-- What a word carries besides its flag: a value behind an equals sign, or letters behind a short
flag. -/
inductive Attachment where
  | value (text : String)
  | letters (text : String)
deriving DecidableEq, Repr

def Attachment.text : Attachment → String
  | value text => text
  | letters text => text

structure Mention where
  spelling : String
  flag : Flag
  attached : Option Attachment
deriving DecidableEq, Repr

inductive Word where
  | value (text : String)
  | separator
  | mention (mention : Mention)
  | unknown (text : String)
deriving DecidableEq, Repr

namespace Word

/-- A word in front of its first equals sign, and what stands behind the sign. -/
def splitAtEquals (text : String) : String × Option Attachment :=
  let front := text.toList.takeWhile (· != '=')
  match text.toList.dropWhile (· != '=') with
  | [] => (text, none)
  | _ :: behind => (String.ofList front, some (.value (String.ofList behind)))

def isDecimalDigit (char : Char) : Bool :=
  (Text.decimalDigit? char).isSome

/-- A hyphen and digits of any script, with a point among or before them; one line end
may follow. -/
def readsAsNegative (text : String) : Bool :=
  let chars := text.toList
  match if chars.getLast? = some '\n' then chars.dropLast else chars with
  | '-' :: number =>
      match number.dropWhile isDecimalDigit with
      | [] => !number.isEmpty
      | '.' :: fraction => !fraction.isEmpty && fraction.all isDecimalDigit
      | _ => false
  | _ => false

/-- The flags that a long word, or a short one with letters behind its first, may stand for. -/
def candidates (text : String) : List Mention :=
  match text.toList with
  | '-' :: '-' :: _ =>
      let (front, attached) := splitAtEquals text
      Flag.spellings.filterMap fun (spelling, flag) =>
        if front.toList.isPrefixOf spelling.toList then some ⟨spelling, flag, attached⟩ else none
  | '-' :: letter :: behind =>
      Flag.spellings.filterMap fun (spelling, flag) =>
        if spelling.toList = ['-', letter] then
          some ⟨spelling, flag, some (.letters (String.ofList behind))⟩
        else none
  | _ => []

def spelledOut? (text : String) : Option Mention :=
  match Flag.spellings.lookup text with
  | some flag => some ⟨text, flag, none⟩
  | none =>
      let (front, attached) := splitAtEquals text
      if attached.isSome then
        (Flag.spellings.lookup front).map fun flag => ⟨front, flag, attached⟩
      else none

def classify (text : String) : Except UsageFault Word :=
  match text.toList with
  | '-' :: _ :: _ =>
      match spelledOut? text with
      | some found => .ok (.mention found)
      | none =>
          match candidates text with
          | [] =>
              if readsAsNegative text ∨ text.toList.contains ' ' then .ok (.value text)
              else .ok (.unknown text)
          | [found] => .ok (.mention found)
          | several => .error (.ambiguous text (several.map Mention.spelling))
  | _ => .ok (.value text)

def classifyAll : List String → Except UsageFault (List Word)
  | [] => .ok []
  | text :: rest =>
      if text = "--" then .ok (.separator :: rest.map .value)
      else do return (← classify text) :: (← classifyAll rest)

end Word

inductive GivenValue where
  | text (content : String)
  | nothing
deriving DecidableEq, Repr

namespace GivenValue

def ofAttached (convention : Convention) (text : String) : GivenValue :=
  if text = "--" ∧ convention.keepsSeparator = false then nothing else .text text

end GivenValue

structure Arguments where
  input : String
  config : Option GivenValue
  comment : Option GivenValue
  strictStrings : Option Bool
  arenaSize : Option GivenValue
  debug : Bool
deriving DecidableEq, Repr

namespace Arguments

/-- Stands for the standard input. -/
def standardInput : String :=
  "-"

def default : Arguments :=
  ⟨standardInput, none, none, none, none, false⟩

def setValue (arguments : Arguments) (flag : Flag) (value : GivenValue) : Arguments :=
  match flag with
  | .config => { arguments with config := some value }
  | .comment => { arguments with comment := some value }
  | .arenaSize => { arguments with arenaSize := some value }
  | _ => arguments

def turnOn (arguments : Arguments) (mention : Mention) : Arguments :=
  match mention.flag with
  | .strictStrings =>
      { arguments with strictStrings := some (mention.spelling != "--no-strict-strings") }
  | .debug => { arguments with debug := true }
  | _ => arguments

end Arguments

inductive Request where
  | help
  | scan (arguments : Arguments)
deriving DecidableEq, Repr

structure Gathering where
  arguments : Arguments
  hasInput : Bool
  /-- Words without a place, the last one first. -/
  extra : List String

namespace Gathering

def empty : Gathering :=
  ⟨.default, false, []⟩

def addExtra (gathering : Gathering) (text : String) : Gathering :=
  { gathering with extra := text :: gathering.extra }

/-- The first value is the input; others have no place. -/
def addValue (gathering : Gathering) (text : String) : Gathering :=
  if gathering.hasInput then gathering.addExtra text
  else { gathering with arguments := { gathering.arguments with input := text }, hasInput := true }

/-- A separator counts as a word only after the input, and not directly after it. -/
def addSeparator (gathering : Gathering) : Gathering :=
  if gathering.hasInput then gathering.addExtra "--" else gathering

def setValue (gathering : Gathering) (flag : Flag) (value : GivenValue) : Gathering :=
  { gathering with arguments := gathering.arguments.setValue flag value }

def turnOn (gathering : Gathering) (mention : Mention) : Gathering :=
  { gathering with arguments := gathering.arguments.turnOn mention }

def finish (gathering : Gathering) : Except UsageFault Request :=
  if gathering.extra.isEmpty then .ok (.scan gathering.arguments)
  else .error (.unrecognized gathering.extra.reverse)

/-- The effect of a value that a flag does not take. Where such a value is read as letters behind
`-h`, they are short flags as well, and the only one there is asks for help. -/
def refuseValue (mention : Mention) (value : String) : Except UsageFault Request :=
  let others := value.toList.dropWhile (· == 'h')
  if mention.spelling = "-h" ∧ value ≠ "" then
    if others.isEmpty then .ok .help
    else .error (.unwantedValue mention.flag (String.ofList others))
  else .error (.unwantedValue mention.flag value)

/-- The effect of letters behind a short flag that are looked at one by one. An `h` is the same flag
once more, which may be given a value or a hyphen that it does not take. -/
def refuseLetters (flag : Flag) : List Char → Except UsageFault Request
  | [] => .error (.unwantedValue flag "")
  | ['h'] => .ok .help
  | 'h' :: '=' :: value => .error (.unwantedValue flag (String.ofList value))
  | 'h' :: letters => refuseLetters flag letters
  | '-' :: rest => .error (.unwantedValue flag (String.ofList ('-' :: rest)))
  | _ => .ok .help

variable (convention : Convention)

def refuse (mention : Mention) : Attachment → Except UsageFault Request
  | .value text =>
      if convention.helpsFirst then .error (.unwantedValue mention.flag text)
      else refuseValue mention text
  | .letters text =>
      if convention.helpsFirst then refuseLetters mention.flag text.toList
      else refuseValue mention text

def gather (gathering : Gathering) : List Word → Except UsageFault Request
  | [] => gathering.finish
  | .unknown text :: rest => gather (gathering.addExtra text) rest
  | .value text :: .separator :: rest =>
      if gathering.hasInput then gather ((gathering.addExtra text).addExtra "--") rest
      else gather (gathering.addValue text) rest
  | .value text :: rest => gather (gathering.addValue text) rest
  | .separator :: rest => gather gathering.addSeparator rest
  | .mention found :: rest =>
      match found.attached, found.flag.takesValue, rest with
      | some attached, true, rest =>
          gather (gathering.setValue found.flag (.ofAttached convention attached.text)) rest
      | none, true, .value text :: rest => gather (gathering.setValue found.flag (.text text)) rest
      | none, true, _ => .error (.missingValue found.flag)
      | some attached, false, _ => refuse convention found attached
      | none, false, rest =>
          if found.flag = .help then .ok .help else gather (gathering.turnOn found) rest

end Gathering

namespace Request

def parse (words : List String) (convention : Convention := .later) :
    Except UsageFault Request := do
  Gathering.empty.gather convention (← Word.classifyAll words)

end Request

end LexKit
