import LexKit.Real.Shortest
import LexKit.Scan

/-!
# Token listings

A listing has one line per token: the offset, right-aligned in six columns, and a description. Text
is shown decoded and quoted, so no payload can break a line.
-/

set_option autoImplicit false

namespace LexKit.Listing

/-- A number is described by its literal, or by its name if it has none. -/
def describeNumber (value : Float) : String :=
  let number := Real.ofBits value.toBits
  (Number.literal? number).getD number.identify

def describeText (payload : Bytes) : String :=
  String.ofList (Text.quoteChars (Utf8.decodeLossy payload))

def describe : Lexeme Bytes → String
  | .symbol kind => kind.name
  | .identifier name => "Identifier(" ++ describeText name ++ ")"
  | .number value => "NumericLiteral(" ++ describeNumber value ++ ")"
  | .string text => "StringLiteral(" ++ describeText text ++ ")"

def offsetWidth : Nat :=
  6

def padLeft (width : Nat) (text : String) : String :=
  String.ofList (List.replicate (width - text.length) ' ') ++ text

def row (offset description : String) : String :=
  padLeft offsetWidth offset ++ "  " ++ description ++ "\n"

def line (offset : Int) (description : String) : String :=
  row (toString offset) description

def ofTokens (tokens : List (Token Bytes)) : String :=
  String.join (tokens.map fun token => line token.offset (describe token.lexeme))

end LexKit.Listing
