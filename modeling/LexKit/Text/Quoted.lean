import LexKit.Byte
import LexKit.Text.Printable

/-!
# Quoted text

One-line forms of arbitrary text and of arbitrary bytes. The mark is the apostrophe, unless the text
holds an apostrophe and no quotation mark. Backslashes, the mark, line ends, tabs and everything
that is not printable are escaped, so a quoted form contains no line break and ends at its mark.
-/

set_option autoImplicit false

namespace LexKit.Text

def apostrophe : Char := '\x27'

def quotationMark : Char := '\x22'

def backslash : Char := '\x5C'

def markFor (chars : List Char) : Char :=
  if chars.contains apostrophe && !chars.contains quotationMark then quotationMark else apostrophe

/-- The last `width` hexadecimal digits of `value`, in lower case. -/
def hexDigits (width value : Nat) : List Char :=
  (List.range width).reverse.map fun place => Nat.digitChar (value / Nat.pow 16 place % 16)

/-- The escapes that do not depend on what counts as printable. -/
def commonEscape? (mark char : Char) : Option (List Char) :=
  if char = mark ∨ char = backslash then some [backslash, char]
  else if char = '\n' then some [backslash, 'n']
  else if char = '\r' then some [backslash, 'r']
  else if char = '\t' then some [backslash, 't']
  else none

/-- A character inside quoted text: itself if it is printable, else an escape of two, four or eight
hexadecimal digits, the fewest that hold its code. -/
def escapeChar (mark char : Char) : List Char :=
  match commonEscape? mark char with
  | some escaped => escaped
  | none =>
      if isPrintable char then [char]
      else if char.toNat < 0x100 then backslash :: 'x' :: hexDigits 2 char.toNat
      else if char.toNat < 0x10000 then backslash :: 'u' :: hexDigits 4 char.toNat
      else backslash :: 'U' :: hexDigits 8 char.toNat

/-- A byte inside a quoted byte string: only visible ASCII stands for itself. -/
def escapeByte (mark : Char) (byte : UInt8) : List Char :=
  let char := Char.ofNat byte.toNat
  match commonEscape? mark char with
  | some escaped => escaped
  | none =>
      if 0x20 ≤ byte ∧ byte < 0x7F then [char]
      else backslash :: 'x' :: hexDigits 2 byte.toNat

def quoteChars (chars : List Char) : List Char :=
  let mark := markFor chars
  mark :: chars.flatMap (escapeChar mark) ++ [mark]

def quote (text : String) : String :=
  String.ofList (quoteChars text.toList)

def markForBytes (bytes : Bytes) : Char :=
  markFor (bytes.map fun byte => Char.ofNat byte.toNat)

/-- Quoted bytes are marked by a leading `b`. -/
def quoteBytes (bytes : Bytes) : String :=
  let mark := markForBytes bytes
  String.ofList ('b' :: mark :: bytes.flatMap (escapeByte mark) ++ [mark])

/-- Quoted bytes that may still change: apostrophes are escaped whatever the mark is. -/
def quoteMutableBytes (bytes : Bytes) : String :=
  let mark := markForBytes bytes
  "bytearray(" ++ String.ofList ('b' :: mark :: bytes.flatMap (escapeByte apostrophe) ++ [mark]) ++
    ")"

end LexKit.Text
