import LexKit.Source.Position
import LexKit.Text.Utf8

/-!
# Reports with source context

A report shows a message, where it applies, and the line it applies to with a caret under the
column.
-/

set_option autoImplicit false

namespace LexKit

structure LexError where
  message : String
  position : Position
  source : Bytes
deriving DecidableEq, Repr

/-- A failure of a scan: what went wrong and at which byte. -/
structure Failure where
  offset : Int
  message : String
deriving DecidableEq, Repr

namespace Source

/-- The lines of a source without their ends, read behind the reversed beginning `current` of the
present line. A line ends at a line feed, at a carriage return, or at both in this order; nothing
follows the last end. -/
def linesFrom (current : Bytes) : Bytes → List Bytes
  | [] => if current.isEmpty then [] else [current.reverse]
  | 0x0D :: 0x0A :: rest => current.reverse :: linesFrom [] rest
  | byte :: rest =>
      if byte == Byte.carriageReturn || byte == Byte.lineFeed then
        current.reverse :: linesFrom [] rest
      else
        linesFrom (byte :: current) rest

def lines (source : Bytes) : List Bytes :=
  linesFrom [] source

end Source

namespace Failure

def toError (failure : Failure) (source : Bytes) : LexError :=
  ⟨failure.message, Position.ofOffset source failure.offset, source⟩

def defaultMessage : String :=
  "unexpected character"

end Failure

namespace LexError

def shownLine (error : LexError) : Bytes :=
  ((Source.lines error.source)[error.position.line - 1]?).getD []

/-- Blank space as wide as the text in front of the caret; tabs stay tabs. -/
def padding (before : Bytes) : List Char :=
  (Utf8.decodeLossy before).map fun char => if char = '\t' then '\t' else ' '

def format (error : LexError) (fileName : String) : String :=
  let line := toString error.position.line
  let column := toString error.position.column
  let gutter := String.ofList (List.replicate (line.length + 1) ' ')
  let shown := error.shownLine
  "error: " ++ error.message ++ "\n" ++
    gutter ++ "--> " ++ fileName ++ ":" ++ line ++ ":" ++ column ++ "\n" ++
    gutter ++ "|\n" ++
    line ++ " | " ++ String.ofList (Utf8.decodeLossy shown) ++ "\n" ++
    gutter ++ "| " ++ String.ofList (padding (shown.take (error.position.column - 1))) ++ "^"

def defaultFileName : String :=
  "input.scan"

end LexError

end LexKit
