import LexKit.Byte

/-!
# Pieces of byte strings

Cutting byte strings at delimiters and joining them.
-/

set_option autoImplicit false

namespace LexKit.Text

/-- Puts a byte in front of pieces: a delimiter begins a new piece. -/
def prependToPieces (delimiter byte : UInt8) : List Bytes → List Bytes
  | [] => if byte == delimiter then [[], []] else [[byte]]
  | first :: rest => if byte == delimiter then [] :: first :: rest else (byte :: first) :: rest

/-- The pieces between delimiters, empty ones included. -/
def pieces (delimiter : UInt8) (bytes : Bytes) : List Bytes :=
  bytes.foldr (prependToPieces delimiter) [[]]

def split (delimiter : UInt8) (bytes : Bytes) : List Bytes :=
  (pieces delimiter bytes).filter fun piece => !piece.isEmpty

/-- A line without one carriage return at its end. -/
def dropCarriageReturn (line : Bytes) : Bytes :=
  if line.getLast? = some Byte.carriageReturn then line.dropLast else line

/-- The non-empty lines, each without one carriage return at its end. -/
def splitLines (bytes : Bytes) : List Bytes :=
  ((pieces Byte.lineFeed bytes).map dropCarriageReturn).filter fun line => !line.isEmpty

/-- The extension of a file name: its last dot and what follows, or `none` if it has no dot. -/
def fileExtension? (name : List Char) : Option (List Char) :=
  if name.contains '.' then
    some ('.' :: (name.reverse.takeWhile (· != '.')).reverse)
  else
    none

end LexKit.Text
