import LexKit.Fault
import LexKit.Memory.Block
import LexKit.Symbol.Table

/-!
# Cursors

A cursor is a reading position over fixed bytes. Moving forward stops at the end. A cursor may be
moved in front of the beginning; reads there count from the end of the bytes, as long as they reach
them.
-/

set_option autoImplicit false

namespace LexKit

structure Cursor where
  bytes : Bytes
  offset : Int
deriving DecidableEq, Repr

namespace Cursor

def ofBytes (bytes : Bytes) : Cursor :=
  ⟨bytes, 0⟩

def size (cursor : Cursor) : Nat :=
  cursor.bytes.length

def atEnd (cursor : Cursor) : Bool :=
  decide (cursor.size ≤ cursor.offset)

/-- The byte at an index, which may count from the end. -/
def byteAt (cursor : Cursor) (index : Int) : Except Fault UInt8 :=
  let place := if index < 0 then index + cursor.size else index
  if place < 0 then .error .positionOutOfRange
  else
    match cursor.bytes[place.toNat]? with
    | some byte => .ok byte
    | none => .error .positionOutOfRange

/-- The byte that lies `ahead` bytes further on, or none if that is past the end. -/
def peek (cursor : Cursor) (ahead : Int) : Except Fault (Option UInt8) :=
  let index := cursor.offset + ahead
  if index < cursor.size then (cursor.byteAt index).map some else .ok none

def rest (cursor : Cursor) : Bytes :=
  cursor.bytes.drop (sliceBound cursor.size cursor.offset)

def startsWith (cursor : Cursor) (literal : Bytes) : Bool :=
  decide (cursor.offset ≤ cursor.size) && literal.isPrefixOf cursor.rest

def advance (cursor : Cursor) (count : Int) : Cursor :=
  { cursor with offset := min cursor.size (cursor.offset + count) }

/-- The bytes that are read one after another from the offset on. In front of the beginning these
are bytes at the end, and then all. -/
def upcoming (cursor : Cursor) : Except Fault Bytes :=
  if 0 ≤ cursor.offset then .ok (cursor.bytes.drop cursor.offset.toNat)
  else
    let place := cursor.offset + cursor.size
    if place < 0 then .error .positionOutOfRange
    else .ok (cursor.bytes.drop place.toNat ++ cursor.bytes)

def skipWhile (cursor : Cursor) (byteClass : ByteClass) : Except Fault Cursor := do
  let skipped := (← cursor.upcoming).takeWhile byteClass.accepts
  return { cursor with offset := cursor.offset + skipped.length }

def skipToLineEnd (cursor : Cursor) : Cursor :=
  let first := sliceBound cursor.size cursor.offset
  let skipped := ((cursor.bytes.drop first).takeWhile (· != Byte.lineFeed)).length
  { cursor with offset := (first + skipped : Nat) }

def slice (cursor : Cursor) (start : Int) : Bytes :=
  let first := sliceBound cursor.size start
  (cursor.bytes.drop first).take (sliceBound cursor.size cursor.offset - first)

section

variable {m : Type → Type} [Monad m] (look : Int → m (Option UInt8))

/-- The entry is accepted at the cursor, where `look` tells what byte lies ahead. Only a word looks
at what follows its literal, and the end of the source follows it as well as any byte that does not
continue an identifier. -/
def acceptsBy (cursor : Cursor) (entry : SymbolEntry) : m Bool := do
  if !cursor.startsWith entry.literal then return false
  if !entry.isWord then return true
  match ← look entry.literal.length with
  | none => return true
  | some follower => return !Byte.isIdentifierPart follower

def firstAcceptedBy (cursor : Cursor) : List SymbolEntry → m (Option SymbolEntry)
  | [] => return none
  | entry :: rest => do
      if ← cursor.acceptsBy look entry then return some entry
      firstAcceptedBy cursor rest

end

def accepts (cursor : Cursor) (entry : SymbolEntry) : Except Fault Bool :=
  cursor.acceptsBy cursor.peek entry

def firstAccepted (cursor : Cursor) (entries : List SymbolEntry) :
    Except Fault (Option SymbolEntry) :=
  cursor.firstAcceptedBy cursor.peek entries

theorem firstAccepted_cons (cursor : Cursor) (entry : SymbolEntry) (rest : List SymbolEntry) :
    cursor.firstAccepted (entry :: rest) = (do
      if ← cursor.accepts entry then return some entry
      cursor.firstAccepted rest) :=
  rfl

def match? (cursor : Cursor) (table : SymbolTable) : Except Fault (Option SymbolEntry) :=
  cursor.firstAccepted table.entries

end Cursor

end LexKit
