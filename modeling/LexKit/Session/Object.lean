import LexKit.Settings.Size
import LexKit.Workspace.Basic

/-!
# Objects of a session

An object is anything that the user of a session can hold: a plain value, or a reference to
something that lives in the session. The parts of blocks, rules, tokens and failures are kept as
they were given, so they may be objects of any type; what cannot work with them says so when it is
asked to.
-/

set_option autoImplicit false

namespace LexKit

namespace Value

/-- There is only one object for it: nothing, truth values, small integers, and what holds one byte,
or one character of as many bits, or none. -/
def isShared : Value → Bool
  | .none => true
  | .bool _ => true
  | .int number => decide (-5 ≤ number ∧ number ≤ 256)
  | .text value => decide (value.length ≤ 1) && value.all (· < '\u0100')
  | .bytes value => decide (value.length ≤ 1)
  | _ => false

end Value

structure BlockId where
  index : Nat
deriving DecidableEq, Repr

structure CursorId where
  index : Nat
deriving DecidableEq, Repr

structure ListId where
  index : Nat
deriving DecidableEq, Repr

structure WindowId where
  index : Nat
deriving DecidableEq, Repr

/-- Tells an object apart from all others that look like it. -/
abbrev Mark := Nat

namespace Mark

/-- The mark of what is not told apart: there is only one object that looks so. -/
@[match_pattern]
def shared : Mark :=
  0

end Mark

inductive TokenVariant where
  | symbol
  | identifier
  | number
  | string
deriving DecidableEq, Repr

inductive Object where
  | value (value : Value) (mark : Mark)
  | kind (kind : TokenKind)
  | allocator (id : AllocatorId)
  | storage (id : StorageId)
  | block (id : BlockId)
  | buffer (id : BufferId)
  | cursor (id : CursorId)
  | rules (marker strictStrings symbols : Object)
  | lexer (mark : Mark) (source : Bytes) (allocator : Object) (marker : String)
      (strictStrings symbols : Object)
  | token (variant : TokenVariant) (payload offset : Object)
  | success (tokens : List Object)
  | failure (offset message : Object)
  /-- An error shows the report that was made with it, whatever becomes of its source. -/
  | error (mark : Mark) (message position source : Object) (report : String)
  | position (line column : Nat) (offset : Quantity)
  | entry (entry : SymbolEntry)
  | table (mark : Mark) (table : SymbolTable)
  | list (id : ListId)
  /-- A list that never changes. -/
  | tuple (objects : List Object)
  | window (id : WindowId)
deriving Inhabited

/-- A block as a user made it: nothing is known of its parts. -/
structure PlacedBlock where
  storage : Object
  start : Object
  size : Object

/-- Consecutive bytes of a storage, shown as they are at the time, until the window is released. -/
structure Window where
  storage : StorageId
  first : Nat
  count : Nat
  isReadOnly : Bool
  isReleased : Bool

/-- A cursor that may have been moved by fractions. -/
structure Reader where
  bytes : Bytes
  offset : Quantity
  /-- The mark of the bytes. -/
  mark : Mark

inductive SessionFault where
  | memory (fault : Fault)
  | symbols (fault : SymbolFault)
  | size (fault : SizeFault)
  | emptyMarker
  /-- What is infinite, or differs from itself, has no literal. -/
  | noLiteral (shown : String)
  /-- A number has more digits than may be written out. -/
  | tooManyDigits
  /-- Characters do not form a number. -/
  | noNumeral
  /-- A name stands for nothing. -/
  | unknownName
  /-- A window was released. -/
  | released
  /-- A storage that a window shows cannot change its size. -/
  | viewed
  /-- A window takes only as many bytes as it shows. -/
  | otherSize
  /-- Bytes that may still change are no name for anything. -/
  | changeable
  /-- Lists lie too deep within each other. -/
  | tooDeep
  /-- An arena is exhausted that counts in real numbers or was given its capacity otherwise than as
  an integer. -/
  | exhausted (requested remaining capacity : Quantity)
  /-- An index is out of range, where the count of elements is no integer. -/
  | outOfRange (index count : Quantity)
  /-- A pattern must be written in ASCII. -/
  | notAscii
  | lexical (report : String)
deriving Inhabited

namespace SessionFault

def message? : SessionFault → Option String
  | memory fault => fault.message?
  | symbols fault => fault.message?
  | size fault => fault.message?
  | emptyMarker => some ScanRules.emptyMarkerMessage
  | noLiteral shown => some ("cannot format non-finite number " ++ shown)
  | lexical report => some report
  | exhausted requested remaining capacity =>
      some (Fault.exhaustedMessage requested remaining capacity)
  | outOfRange index count => some (Fault.rangeMessage index count)
  | _ => none

def shownQuantities : SessionFault → List Quantity
  | memory (.negativeSize requested) => [requested]
  | memory (.negativeCapacity capacity) => [capacity]
  | memory (.arenaExhausted requested ..) => [.int requested]
  | memory (.indexOutOfRange index _) => [index]
  | memory (.negativeLength count) => [count]
  | size (.negative value) => [.int value]
  | exhausted requested .. => [requested]
  | outOfRange index _ => [index]
  | _ => []

/-- A fault as it can be told: its message must not show a number with too many digits. -/
def told (fault : SessionFault) : SessionFault :=
  if fault.shownQuantities.all Quantity.isShowable then fault else .tooManyDigits

end SessionFault

namespace TokenVariant

def name : TokenVariant → String
  | symbol => "Symbol"
  | identifier => "Identifier"
  | number => "NumericLiteral"
  | string => "StringLiteral"

def payloadName : TokenVariant → String
  | symbol => "kind"
  | identifier => "name"
  | number => "value"
  | string => "value"

end TokenVariant

namespace Object

def none : Object :=
  .value Value.none Mark.shared

def bool (value : Bool) : Object :=
  .value (.bool value) Mark.shared

def int (value : Int) : Object :=
  .value (.int value) Mark.shared

def nat (value : Nat) : Object :=
  .value (.int value) Mark.shared

def text (value : String) : Object :=
  .value (.text value) Mark.shared

def bytes (value : Bytes) : Object :=
  .value (.bytes value) Mark.shared

def numbers (bytes : Bytes) : List Object :=
  bytes.map fun byte => nat byte.toNat

def quantity? : Object → Option Quantity
  | .value (.int number) _ => some (.int number)
  | .value (.bool flag) _ => some (.flag flag)
  | .value (.real bits) _ => some (.real bits)
  | _ => Option.none

/-- The integer that an integer or a truth value stands for. -/
def int? (object : Object) : Option Int :=
  object.quantity?.bind Quantity.whole?

/-- The methods of records and references take arguments by name; those of values and sequences take
them by place only. -/
def takesNames : Object → Bool
  | .value .. => false
  | .storage _ => false
  | .list _ => false
  | .tuple _ => false
  | .window _ => false
  | _ => true

def isNone : Object → Bool
  | .value Value.none _ => true
  | _ => false

mutual

/-- Both are one and the same object, even if it might not be equal to itself. Records have no
marks; they count as one where their parts do. -/
def isIdentical : Object → Object → Bool
  | .value left leftMark, .value right rightMark => leftMark == rightMark && left == right
  | .kind left, .kind right => left == right
  | .allocator left, .allocator right => left == right
  | .storage left, .storage right => left == right
  | .block left, .block right => left == right
  | .buffer left, .buffer right => left == right
  | .cursor left, .cursor right => left == right
  | .rules leftMarker leftStrict leftSymbols, .rules rightMarker rightStrict rightSymbols =>
      isIdentical leftMarker rightMarker && isIdentical leftStrict rightStrict &&
        isIdentical leftSymbols rightSymbols
  | .lexer left .., .lexer right .. => left == right
  | .token left leftPayload leftOffset, .token right rightPayload rightOffset =>
      left == right && isIdentical leftPayload rightPayload && isIdentical leftOffset rightOffset
  | .success left, .success right => areIdentical left right
  | .failure leftOffset leftMessage, .failure rightOffset rightMessage =>
      isIdentical leftOffset rightOffset && isIdentical leftMessage rightMessage
  | .error left .., .error right .. => left == right
  | .position leftLine leftColumn leftOffset, .position rightLine rightColumn rightOffset =>
      leftLine == rightLine && leftColumn == rightColumn && leftOffset == rightOffset
  | .entry left, .entry right => left == right
  | .table left _, .table right _ => left == right
  | .list left, .list right => left == right
  | .tuple left, .tuple right => areIdentical left right
  | .window left, .window right => left == right
  | _, _ => false

def areIdentical : List Object → List Object → Bool
  | [], [] => true
  | left :: lefts, right :: rights => isIdentical left right && areIdentical lefts rights
  | _, _ => false

end

def ofEntries (table : SymbolTable) : List Object :=
  table.entries.map .entry

def ofToken (token : Token BufferId) : Object :=
  let (variant, payload) : TokenVariant × Object :=
    match token.lexeme with
    | .symbol carried => (.symbol, .kind carried)
    | .identifier carried => (.identifier, .buffer carried)
    | .number carried => (.number, .value (.real carried.toBits) Mark.shared)
    | .string carried => (.string, .buffer carried)
  .token variant payload (nat token.offset)

def ofOutcome : Outcome BufferId → Object
  | .success tokens => .success (tokens.map ofToken)
  | .failure reported => .failure (int reported.offset) (text reported.message)

/-- The table of the symbols that rules have if none are given. There is only one of it. -/
def defaultTable : Object :=
  .table 0 SymbolTable.default

end Object

namespace PlacedBlock

def empty : PlacedBlock :=
  ⟨Object.none, Object.nat 0, Object.nat 0⟩

/-- The block of an extent. `size` is the size as it was asked for. -/
def ofExtent (extent : Extent) (size : Object) : PlacedBlock :=
  ⟨.storage extent.storage, Object.nat extent.start, size⟩

end PlacedBlock

namespace Reader

def ofBytes (bytes : Bytes) (mark : Mark) : Reader :=
  ⟨bytes, .int 0, mark⟩

def source (reader : Reader) : Object :=
  let bytes := Value.bytes reader.bytes
  .value bytes (if bytes.isShared then Mark.shared else reader.mark)

def atEnd (reader : Reader) : Bool :=
  Quantity.isAtMost (.int reader.bytes.length) reader.offset

end Reader

end LexKit
