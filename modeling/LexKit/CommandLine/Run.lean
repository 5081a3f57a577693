import LexKit.CommandLine.Usage
import LexKit.Files.Tree
import LexKit.Listing
import LexKit.Settings.Options
import LexKit.Workspace.Contents

/-!
# Runs of the program

A run lists the tokens of one source. It ends with code 0 and the listing, with code 1 and a report
if the source has a lexical failure, and with code 2 and a message if it could not scan at all. A
few faults have no message; they end the run abruptly. What a run comes to depends on the platform
below it as well: on the convention of its command lines, and on the memory of its machine.
-/

set_option autoImplicit false

namespace LexKit

structure Platform where
  convention : Convention
  machine : Machine

/-- The later convention, and a machine that never runs out of memory. -/
def Platform.default : Platform :=
  ⟨.later, .unlimited⟩

inductive Crash where
  | options (fault : OptionFault)
  | memory (fault : Fault)
  /-- The input cannot be the name of a file. -/
  | unnameable (input : FilePath)
deriving DecidableEq, Repr

inductive Ending where
  | exit (code : Nat)
  | crash (cause : Crash)
deriving DecidableEq, Repr

/-- What a run leaves: its ending, and what it wrote to the standard output and the error output. -/
structure Completion where
  ending : Ending
  output : String
  errors : String
deriving DecidableEq, Repr

namespace Completion

/-- A complaint ends the run with code 2. -/
def complaint (message : String) : Completion :=
  ⟨.exit 2, "", "error: " ++ message ++ "\n"⟩

/-- Puts lines of a log in front of what was written to the error output. -/
def afterLog (log : List String) (completion : Completion) : Completion :=
  { completion with errors := String.join (log.map (· ++ "\n")) ++ completion.errors }

end Completion

/-- The result of scanning a source: tokens, a lexical failure, or a fault of the allocator. -/
abbrev Scanned := Except Fault (Except Failure (List (Token Bytes)))

namespace Options

def inputName (options : Options) : String :=
  match options.input with
  | some path => path.text
  | none => "<stdin>"

def scan (options : Options) (machine : Machine) (source : Bytes) : Scanned :=
  match WorkspaceM.contentsOf options.rules options.arenaSize source (.empty machine) with
  | .ok result _ => .ok result
  | .error fault _ => .error fault

/-- An arena is announced once it exists. -/
def arenaLog (options : Options) (machine : Machine) : List String :=
  if options.arenaSize = 0 then []
  else
    match WorkspaceM.newAllocator options.arenaSize (.empty machine) with
    | .ok _ _ =>
        ["scanlab.memory: arena created with " ++ toString options.arenaSize ++ " bytes"]
    | .error _ _ => []

def log (options : Options) (machine : Machine) (size : Nat) (scanned : Scanned) : List String :=
  options.arenaLog machine ++
    match scanned with
    | .ok (.ok tokens) =>
        ["scanlab.lexer: lexed " ++ toString tokens.length ++ " tokens from " ++ toString size ++
          " bytes"]
    | .ok (.error failure) =>
        ["scanlab.lexer: lex failure at offset " ++ toString failure.offset ++ ": " ++
          failure.message]
    | .error (.arenaExhausted requested remaining capacity) =>
        ["scanlab.memory: arena exhausted: requested " ++ toString requested ++ " bytes, " ++
          toString (capacity - remaining) ++ " of " ++ toString capacity ++ " in use"]
    | .error _ => []

def conclude (options : Options) (source : Bytes) : Scanned → Completion
  | .ok (.ok tokens) => ⟨.exit 0, Listing.ofTokens tokens, ""⟩
  | .ok (.error failure) =>
      ⟨.exit 1, "", (failure.toError source).format options.inputName ++ "\n"⟩
  | .error fault =>
      match fault.message? with
      | some message => Completion.complaint message
      | none => ⟨.crash (.memory fault), "", ""⟩

def complete (options : Options) (machine : Machine) (source : Bytes) : Completion :=
  let scanned := options.scan machine source
  let log := if options.debug then options.log machine source.length scanned else []
  (options.conclude source scanned).afterLog log

def runFile (options : Options) (machine : Machine) (files : Files) (path : FilePath) :
    Completion :=
  match files path with
  | .ok source => options.complete machine source
  | .error fault =>
      Completion.complaint ("cannot read " ++ options.inputName ++ ": " ++ fault.message)

def run (options : Options) (machine : Machine) (files : Files) (standardInput : Bytes) :
    Completion :=
  match options.input with
  | none => options.complete machine standardInput
  | some path =>
      if path.isNameable then options.runFile machine files path
      else ⟨.crash (.unnameable path), "", ""⟩

end Options

namespace CommandLine

/-- The options of arguments, with the settings found among the files. There are no settings where a
path leads to no file, or cannot be that of a file. A file that cannot be read is another matter. -/
def optionsOf (arguments : Arguments) (files : Files) : Except OptionFault Options :=
  let path := arguments.settingsPath
  match files path with
  | .ok document => Options.resolve arguments (some document)
  | .error fault =>
      if path.isNameable && !fault.isAbsence then .error (.unreachable fault)
      else Options.resolve arguments none

def run (words : List String) (files : Files) (standardInput : Bytes)
    (platform : Platform := .default) : Completion :=
  match Request.parse words platform.convention with
  | .error fault => ⟨.exit 2, "", Usage.report fault.message⟩
  | .ok .help => ⟨.exit 0, Usage.help, ""⟩
  | .ok (.scan arguments) =>
      match optionsOf arguments files with
      | .ok options => options.run platform.machine files standardInput
      | .error fault =>
          match fault.message? with
          | some message => Completion.complaint message
          | none => ⟨.crash (.options fault), "", ""⟩

def filesRead (words : List String) (convention : Convention := .later) : List FilePath :=
  match Request.parse words convention with
  | .ok (.scan arguments) => arguments.settingsPath :: arguments.inputPath?.toList
  | _ => []

/-- A run without an input file scans the standard input. -/
def readsStandardInput (words : List String) (convention : Convention := .later) : Bool :=
  match Request.parse words convention with
  | .ok (.scan arguments) => arguments.inputPath?.isNone
  | _ => false

end CommandLine

end LexKit
