import LexKit.Text.Utf8
import LexKit.Token

/-!
# Fixed symbols

A symbol entry is one literal and the kind of token it produces. A *word* entry, such as a keyword,
is accepted only where no identifier character follows, so that it never splits a longer name.
-/

set_option autoImplicit false

namespace LexKit

structure SymbolEntry where
  literal : Bytes
  kind : TokenKind
  isWord : Bool
deriving DecidableEq, Repr

namespace SymbolEntry

/-- The entry of a literal given as text: a word if it begins with a letter. -/
def ofText (literal : String) (kind : TokenKind) : SymbolEntry :=
  let bytes := Utf8.encode literal
  ⟨bytes, kind, bytes.head?.any Byte.isLetter⟩

/-- The text right after a literal does not continue a word. -/
def endsWord (after : Bytes) : Bool :=
  !after.head?.any Byte.isIdentifierPart

def accepts (entry : SymbolEntry) (rest : Bytes) : Bool :=
  entry.literal.isPrefixOf rest && (!entry.isWord || endsWord (rest.drop entry.literal.length))

end SymbolEntry

inductive SymbolFault where
  | emptyLiteral (kind : TokenKind)
  | payloadKind (kind : TokenKind)
  | duplicate (literal : String) (first second : TokenKind)
  | shadowed (literal : String) (kind : TokenKind) (shorter : String) (shorterKind : TokenKind)
  /-- An offending literal is not UTF-8, so no message can show it. -/
  | unreadable
deriving DecidableEq, Repr

end LexKit
