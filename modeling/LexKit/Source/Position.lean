import LexKit.Byte

/-!
# Positions in a source

A byte offset is shown to people as a line and a column, both counted from 1. Lines end at line
feeds, and columns count bytes.
-/

set_option autoImplicit false

namespace LexKit

structure Position where
  line : Nat
  column : Nat
  offset : Nat
deriving DecidableEq, Repr

namespace Position

/-- The part of the current line that ends at the end of `before`. -/
def lineTail (before : Bytes) : Bytes :=
  (before.reverse.takeWhile (· != Byte.lineFeed)).reverse

def after (before : Bytes) : Position :=
  ⟨before.count Byte.lineFeed + 1, (lineTail before).length + 1, before.length⟩

/-- The position of an offset; an offset outside the source is moved to the nearer end. -/
def ofOffset (source : Bytes) (offset : Int) : Position :=
  after (source.take offset.toNat)

end Position

end LexKit
