import LexKit.Source.Position
import LexKit.Tokenize

/-!
# Diagnostics of documents

A document that is being edited is scanned whole after every change. Its diagnostics are none, or
one on the character where the scan failed. Lines and characters are counted from 0, and characters
are those of the text, not bytes.
-/

set_option autoImplicit false

namespace LexKit

structure TextPlace where
  line : Nat
  character : Nat
deriving DecidableEq, Repr

inductive Severity where
  | error
  | warning
  | information
  | hint
deriving DecidableEq, Repr

namespace Severity

def code : Severity → Nat
  | error => 1
  | warning => 2
  | information => 3
  | hint => 4

end Severity

structure Diagnostic where
  start : TextPlace
  stop : TextPlace
  message : String
  severity : Severity
  source : String
deriving DecidableEq, Repr

namespace TextPlace

/-- The place of a byte offset. The beginning of its line is decoded to count its characters. -/
def ofOffset (source : Bytes) (offset : Int) : TextPlace :=
  let before := source.take offset.toNat
  ⟨before.count Byte.lineFeed, (Utf8.decodeLossy (Position.lineTail before)).length⟩

def next (place : TextPlace) : TextPlace :=
  { place with character := place.character + 1 }

end TextPlace

namespace Diagnostic

def tool : String :=
  "scanlab"

/-- A lexical failure marks one character. -/
def ofFailure (source : Bytes) (failure : Failure) : Diagnostic :=
  let start := TextPlace.ofOffset source failure.offset
  ⟨start, start.next, failure.message, .error, tool⟩

def ofText (text : String) : List Diagnostic :=
  let source := Utf8.encode text
  match (Scan.run ScanRules.default source).ending.failure? with
  | some failure => [ofFailure source failure]
  | none => []

end Diagnostic

/-- The text of each document. The editor's side keeps the texts; how it comes by them is its own
affair. -/
abbrev Documents := String → String

/-- What an editor tells: a document was opened, or its text has changed. -/
inductive DocumentEvent where
  | opened (uri : String)
  | changed (uri : String)
deriving DecidableEq, Repr

structure Publication where
  uri : String
  diagnostics : List Diagnostic
deriving DecidableEq, Repr

namespace Publication

def ofDocument (documents : Documents) (uri : String) : Publication :=
  ⟨uri, Diagnostic.ofText (documents uri)⟩

end Publication

namespace DocumentEvent

def uri : DocumentEvent → String
  | opened uri => uri
  | changed uri => uri

/-- What is published after an event. The documents are as the event leaves them. -/
def publish (documents : Documents) : DocumentEvent → Publication
  | opened uri => .ofDocument documents uri
  | changed uri => .ofDocument documents uri

end DocumentEvent

end LexKit
