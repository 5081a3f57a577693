/-!
# Bytes and their classes

Sources, payloads and storage are sequences of bytes. Scanning asks four questions of a byte, all of
them about ASCII: every byte from 0x80 up belongs to no class.
-/

set_option autoImplicit false

namespace LexKit

abbrev Bytes := List UInt8

namespace Byte

def quote : UInt8 := 0x22

def point : UInt8 := 0x2E

def lineFeed : UInt8 := 0x0A

def carriageReturn : UInt8 := 0x0D

def isLetter (byte : UInt8) : Bool :=
  (0x41 ≤ byte && byte ≤ 0x5A) || (0x61 ≤ byte && byte ≤ 0x7A)

def isDigit (byte : UInt8) : Bool :=
  0x30 ≤ byte && byte ≤ 0x39

/-- Space, tab, line feed, carriage return, form feed and vertical tab. -/
def isWhitespace (byte : UInt8) : Bool :=
  byte == 0x20 || (0x09 ≤ byte && byte ≤ 0x0D)

def trim (bytes : Bytes) : Bytes :=
  ((bytes.dropWhile isWhitespace).reverse.dropWhile isWhitespace).reverse

/-- The bytes that may continue an identifier: letters, digits and the underscore. -/
def isIdentifierPart (byte : UInt8) : Bool :=
  isLetter byte || isDigit byte || byte == 0x5F

end Byte

/-- The classes a scan distinguishes. They overlap: letters and digits also continue identifiers. -/
inductive ByteClass where
  | letter
  | digit
  | whitespace
  | identifierPart
deriving DecidableEq, Repr

namespace ByteClass

def all : List ByteClass :=
  [.letter, .digit, .whitespace, .identifierPart]

def accepts : ByteClass → UInt8 → Bool
  | .letter, byte => Byte.isLetter byte
  | .digit, byte => Byte.isDigit byte
  | .whitespace, byte => Byte.isWhitespace byte
  | .identifierPart, byte => Byte.isIdentifierPart byte

/-- The classes of a character code; a code that is no byte belongs to none. -/
def ofCode (code : Int) : List ByteClass :=
  if 0 ≤ code ∧ code < 256 then
    all.filter fun byteClass => byteClass.accepts (UInt8.ofNat code.toNat)
  else
    []

end ByteClass

end LexKit
