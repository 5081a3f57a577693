import LexKit.Real.Binary

/-!
# Item layouts

The elements of a buffer share one layout: the fields of an element, where each begins, and how many
bytes an element takes. A layout is written as a pattern: an optional mark for byte order and
alignment, then field codes, each with an optional repeat count. Blanks may stand between codes.

`@` or no mark means the machine's order, sizes and alignment; `=` and `<` mean little-endian, `>`
and `!` big-endian, all three with standard sizes and no alignment.
-/

set_option autoImplicit false

namespace LexKit

inductive FieldType where
  | integer (signed : Bool) (width : Nat)
  /-- Eight bytes that take signed and unsigned numbers alike and give unsigned ones. -/
  | address
  | float (format : Real.Format)
  | truth
  /-- One byte, given as bytes. -/
  | character
  /-- Bytes cut or padded with zeros to a fixed length. -/
  | fixedBytes (length : Nat)
  /-- Bytes behind a byte that counts them, in `length` bytes altogether. -/
  | countedBytes (length : Nat)
deriving DecidableEq, Repr

structure FieldRun where
  offset : Nat
  type : FieldType
  count : Nat
deriving DecidableEq, Repr

structure Layout where
  pattern : String
  bigEndian : Bool
  /-- The machine's own sizes and alignment, and its own conversion of numbers. -/
  isNative : Bool
  size : Nat
  runs : List FieldRun
deriving DecidableEq, Repr

namespace Layout

def itemCount (layout : Layout) : Nat :=
  layout.runs.foldr (fun run total => run.count + total) 0

def singleItem? (layout : Layout) : Option (Nat × FieldType) :=
  if layout.itemCount = 1 then
    (layout.runs.find? (·.count == 1)).map fun run => (run.offset, run.type)
  else none

def firstItem? (layout : Layout) : Option (Nat × FieldType) :=
  (layout.runs.find? (·.count != 0)).map fun run => (run.offset, run.type)

/-- Counted bytes without room for their count cannot be read, and an element is read as a whole. -/
def isReadable (layout : Layout) : Bool :=
  layout.runs.all fun run => run.type != .countedBytes 0

/-- What a field code says: a padding byte, or an item with its size and its alignment. -/
inductive Code where
  | padding
  | item (type : FieldType) (size align : Nat)
  /-- Bytes whose repeat count is their length. -/
  | bytes (counted : Bool)
deriving DecidableEq, Repr

/-- An integer item that is aligned to its own width. -/
def Code.integer (signed : Bool) (width : Nat) : Code :=
  .item (.integer signed width) width width

/-- The codes that mean the same in every mode. -/
def commonCode? : Char → Option Code
  | 'x' => some .padding
  | 'b' => some (.integer true 1)
  | 'B' => some (.integer false 1)
  | 'h' => some (.integer true 2)
  | 'H' => some (.integer false 2)
  | 'i' => some (.integer true 4)
  | 'I' => some (.integer false 4)
  | 'q' => some (.integer true 8)
  | 'Q' => some (.integer false 8)
  | 'e' => some (.item (.float Real.half) 2 2)
  | 'f' => some (.item (.float Real.single) 4 4)
  | 'd' => some (.item (.float Real.double) 8 8)
  | '?' => some (.item .truth 1 1)
  | 'c' => some (.item .character 1 1)
  | 's' => some (.bytes false)
  | 'p' => some (.bytes true)
  | _ => none

/-- Long integers have 8 bytes natively and 4 in the standard sizes; the two codes for sizes and the
one for addresses are native only. -/
def code? (isNative : Bool) (char : Char) : Option Code :=
  match char with
  | 'l' => some (.integer true (if isNative then 8 else 4))
  | 'L' => some (.integer false (if isNative then 8 else 4))
  | 'n' => if isNative then some (.integer true 8) else none
  | 'N' => if isNative then some (.integer false 8) else none
  | 'P' => if isNative then some (.item .address 8 8) else none
  | _ => commonCode? char

def isPatternBlank (char : Char) : Bool :=
  char == ' ' || ('\t' ≤ char && char ≤ '\r')

/-- No element may be larger, and no count greater, than the machine's greatest size. -/
def limit : Nat :=
  0x7FFFFFFFFFFFFFFF

/-- The least multiple of `align` that is not less than `offset`. -/
def alignUp (offset align : Nat) : Nat :=
  (offset + align - 1) / align * align

/-- A field code with its repeat count behind the first `offset` bytes of an element: where it ends,
and the items that it stands for. -/
def place (isNative : Bool) (offset : Nat) (code : Code) (count : Nat) : Nat × List FieldRun :=
  match code with
  | .padding => (offset + count, [])
  | .item type size align =>
      let start := if isNative then alignUp offset align else offset
      (start + size * count, [⟨start, type, count⟩])
  | .bytes counted =>
      (offset + count, [⟨offset, if counted then .countedBytes count else .fixedBytes count, 1⟩])

/-- Reads the codes of a pattern behind the first `offset` bytes of an element: the size of the
element and the items. `pending` is the repeat count read so far, if there is one. -/
def readCodes (isNative : Bool) (offset : Nat) (pending : Option Nat) :
    List Char → Option (Nat × List FieldRun)
  | [] => if pending.isNone then some (offset, []) else none
  | char :: rest =>
      if '0' ≤ char ∧ char ≤ '9' then
        let count := pending.getD 0 * 10 + (char.toNat - 48)
        if count ≤ limit then readCodes isNative offset (some count) rest else none
      else if isPatternBlank char ∧ pending.isNone then
        readCodes isNative offset none rest
      else
        match code? isNative char with
        | none => none
        | some code =>
            let (stop, runs) := place isNative offset code (pending.getD 1)
            if stop ≤ limit then
              (readCodes isNative stop none rest).map fun (size, behind) => (size, runs ++ behind)
            else none

def ofCodes? (pattern : String) (bigEndian isNative : Bool) (codes : List Char) : Option Layout :=
  (readCodes isNative 0 none codes).map fun (size, runs) =>
    ⟨pattern, bigEndian, isNative, size, runs⟩

/-- Reads a pattern, or `none` if it is malformed. -/
def ofPattern? (pattern : String) : Option Layout :=
  match pattern.toList with
  | '@' :: codes => ofCodes? pattern false true codes
  | '=' :: codes => ofCodes? pattern false false codes
  | '<' :: codes => ofCodes? pattern false false codes
  | '>' :: codes => ofCodes? pattern true false codes
  | '!' :: codes => ofCodes? pattern true false codes
  | codes => ofCodes? pattern false true codes

def byteLayout : Layout :=
  ⟨"B", false, true, 1, [⟨0, .integer false 1, 1⟩]⟩

example : ofPattern? "B" = some byteLayout := by decide

end Layout

end LexKit
