import LexKit.Session.Scanning

/-!
# Numbers, sizes and names in a session
-/

set_option autoImplicit false

namespace LexKit.SessionM

/-- A size in a larger unit. A quotient of an integer may be too large for a real number. -/
def inUnit (unit : Nat) (quotient? : Int → Option UInt64) (size : Object) : SessionM Object := do
  match ← quantityOf size with
  | .real bits => ofValue (.real (Real.quotient bits (Float.ofNat unit).toBits))
  | quantity =>
      match quotient? (quantity.whole?.getD 0) with
      | some bits => ofValue (.real bits)
      | none => fail .floatTooLarge

def bytesToMegabytes : Object → SessionM Object :=
  inUnit Units.megabyte Units.bytesToMegabytes?

def bytesToGigabytes : Object → SessionM Object :=
  inUnit Units.gigabyte Units.bytesToGigabytes?

def repeated {α : Type} (count : Nat) (items : List α) : List α :=
  if items.isEmpty then [] else (List.replicate count items).flatten

/-- A number of units in bytes. A sequence is repeated as often as a unit has bytes. -/
def ofUnit (unit : Nat) (size : Object) : SessionM Object := do
  match size with
  | .value (.text text) _ => return Object.text (String.ofList (repeated unit text.toList))
  | .value (.bytes bytes) _ => return Object.bytes (repeated unit bytes)
  | .storage id => addStorage (Storage.ofBytes (repeated unit ((← get).storageBytes id)))
  | .list id => addList (repeated unit ((← get).list id))
  | .tuple objects => return .tuple (repeated unit objects)
  | other => ofQuantity ((← quantityOf other).times unit)

def numeralChars (object : Object) : SessionM (List Char) :=
  match object with
  | .value (.text text) _ => return text.toList
  | .value (.bytes bytes) _ => return Utf8.decodeAscii bytes
  | .storage _ => fail .wrongType
  | .cursor _ => fail .wrongType
  | _ => fail .unsupported

def parseFloat (text : Object) : SessionM Object := do
  match Number.parseFloat? (← numeralChars text) with
  | some value => ofValue (.real value.toBits)
  | none => return Object.none

def parseInt (text : Object) : SessionM Object := do
  match Number.parseInt? (← numeralChars text) with
  | some value => return Object.int value
  | none => return Object.none

def fileExtension (name : Object) : SessionM Object :=
  match name with
  | .value (.text name) _ =>
      match Text.fileExtension? name.toList with
      | some extension => return Object.text (String.ofList extension)
      | none => return Object.none
  | .value (.bytes _) _ => fail .wrongType
  | .storage _ => fail .wrongType
  | _ => fail .unsupported

def ofSize (result : Except SizeFault Nat) : SessionM Object :=
  match result with
  | .ok size => return Object.nat size
  | .error fault => throw (.size fault)

/-- Reads a byte count that is written as bytes, where it takes no suffix. -/
def parseSizeBytes (object : Object) (bytes : Bytes) : SessionM Object := do
  let digits := Byte.trim bytes
  if digits.isEmpty || !digits.all Byte.isDigit then
    throw (.size (.malformed (← asText object)))
  ofSize (ByteCount.parse (String.ofList (Utf8.decodeAscii digits)))

/-- Reads a byte count. A truth value is taken as it is. -/
def parseSize (object : Object) : SessionM Object := do
  match object, ← heldBytes? object with
  | .window _, _ => fail .unsupported
  | _, some bytes => parseSizeBytes object bytes
  | .value (.text text) _, none => ofSize (ByteCount.parse text)
  | .value (.int value) _, none => ofSize (ByteCount.ofInt value)
  | .value (.bool value) _, none => return Object.bool value
  | _, none => fail .unsupported

def isWithin (first last : Nat) (quantity : Quantity) : Bool :=
  Quantity.isAtMost (.int first) quantity && quantity.isAtMost (.int last)

/-- The byte classes of a code. Between the codes of letters, and of digits, fractions count as
such, too. -/
def classesOf (quantity : Quantity) : List ByteClass :=
  match quantity.whole? with
  | some code => ByteClass.ofCode code
  | none =>
      let isLetter := isWithin 0x41 0x5A quantity || isWithin 0x61 0x7A quantity
      let isDigit := isWithin 0x30 0x39 quantity
      let isBlank := isWithin 0x20 0x20 quantity ||
        (List.range' 0x09 5).any fun code => isWithin code code quantity
      ByteClass.all.filter fun
        | .letter => isLetter
        | .digit => isDigit
        | .whitespace => isBlank
        | .identifierPart => isLetter || isDigit || isWithin 0x5F 0x5F quantity

def classMark : ByteClass → Char
  | .letter => 'L'
  | .digit => 'D'
  | .whitespace => 'W'
  | .identifierPart => 'I'

def byteClasses (codes : Object) : SessionM Object := do
  let marks ← (← members codes).mapM fun code => do
    return Object.text (String.ofList ((classesOf (← quantityOf code)).map classMark))
  addList marks

/-- A copy of an object. What cannot change is its own copy. -/
def copy (object : Object) : SessionM Object := do
  let session ← get
  match object with
  | .allocator id => copyAllocator id
  | .storage id => addStorage (session.memory.storage id)
  | .block id => addBlock (session.block id)
  | .buffer id => copyBuffer id
  | .cursor id => addCursor (session.reader id)
  | .lexer _ source allocator marker strictStrings symbols =>
      return .lexer (← newMark) source allocator marker strictStrings symbols
  | .table _ table => addTable table
  | .list id => addList (session.list id)
  | .window _ => fail .wrongType
  | .error .. => fail .wrongType
  | object => return object

end LexKit.SessionM
