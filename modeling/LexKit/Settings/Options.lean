import LexKit.CommandLine.Arguments
import LexKit.Files.Tree
import LexKit.Scan
import LexKit.Settings.Size
import LexKit.Toml.Document

/-!
# Options

The options of a scan come from the command line, from the settings document, and from defaults, in
this order of precedence. A setting of another type than expected counts as absent. A configured
arena size is checked even where the command line overrides it.
-/

set_option autoImplicit false

namespace LexKit

structure Options where
  /-- The file to scan; `none` stands for the standard input. -/
  input : Option FilePath
  rules : ScanRules
  /-- The capacity of the arena; zero asks for the heap. -/
  arenaSize : Nat
  debug : Bool

inductive OptionFault where
  /-- Whether there is a settings document cannot be found out, or it cannot be read. -/
  | unreachable (fault : ReadFault)
  /-- The settings document is not UTF-8. -/
  | undecodable
  | document (problem : Toml.Problem)
  | emptyMarker
  | size (fault : SizeFault)
  /-- A size was announced and not given. -/
  | sizeLacking
deriving DecidableEq, Repr

namespace OptionFault

def message? : OptionFault → Option String
  | document .malformed => some "invalid config file:"
  | emptyMarker => some ScanRules.emptyMarkerMessage
  | size fault => fault.message?
  | _ => none

end OptionFault

namespace Arguments

def inputPath? (arguments : Arguments) : Option FilePath :=
  if arguments.input = standardInput then none else some (.parse arguments.input)

/-- The name under which a settings document is found without being named. -/
def settingsName : String :=
  "scanlab.toml"

/-- Where the settings are looked for: in the given file, or else beside the input. -/
def settingsPath (arguments : Arguments) : FilePath :=
  let beside := ((arguments.inputPath?.getD (.parse ".")).parent).entry settingsName
  match arguments.config with
  | some (.text given) => if given.isEmpty then beside else .parse given
  | _ => beside

end Arguments

namespace Options

def configuredMarker (settings : Toml.Table) : String :=
  match (settings.inner "lexer").find? "comment" with
  | some (.text marker) => marker
  | _ => ScanRules.default.marker

def configuredStrictness (settings : Toml.Table) : Bool :=
  match (settings.inner "lexer").find? "strict_strings" with
  | some (.boolean strictStrings) => strictStrings
  | _ => ScanRules.default.strictStrings

/-- The arena size that the settings give, which may be written as a number or as a byte count. -/
def configuredSize (settings : Toml.Table) : Except SizeFault Nat :=
  match (settings.inner "arena").find? "size" with
  | some (.integer size) => ByteCount.ofInt size
  | some (.text size) => ByteCount.parse size
  | _ => .ok 0

/-- The marker in effect. A marker that was announced and not given is empty. -/
def marker (arguments : Arguments) (settings : Toml.Table) : String :=
  match arguments.comment with
  | some (.text marker) => marker
  | some .nothing => ""
  | none => configuredMarker settings

def strictness (arguments : Arguments) (settings : Toml.Table) : Bool :=
  arguments.strictStrings.getD (configuredStrictness settings)

def size (arguments : Arguments) (settings : Toml.Table) : Except OptionFault Nat := do
  let configured ← (configuredSize settings).mapError .size
  match arguments.arenaSize with
  | some (.text size) => (ByteCount.parse size).mapError .size
  | some .nothing => throw .sizeLacking
  | none => return configured

def ofSettings (arguments : Arguments) (settings : Toml.Table) : Except OptionFault Options := do
  let some rules :=
      ScanRules.ofMarker? (marker arguments settings) (strictness arguments settings)
        SymbolTable.default
    | throw .emptyMarker
  return ⟨arguments.inputPath?, rules, ← size arguments settings, arguments.debug⟩

/-- Reads a settings document; there are no settings where there is no document. -/
def readSettings : Option Bytes → Except OptionFault Toml.Table
  | none => .ok []
  | some bytes =>
      match Utf8.decode? bytes with
      | some text => (Toml.Document.parse text).mapError .document
      | none => .error .undecodable

/-- The options of a command line beside a settings document, if there is one. -/
def resolve (arguments : Arguments) (document : Option Bytes) : Except OptionFault Options := do
  ofSettings arguments (← readSettings document)

end Options

end LexKit
