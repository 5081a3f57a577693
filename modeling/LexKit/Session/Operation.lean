import LexKit.Session.Method
import LexKit.Session.Numbers
import LexKit.Session.Same

/-!
# Operations on objects

The operations that can be asked of an object by name, and what the objects of each type answer.
Four operations are there for every object; any other one is unsupported where no rule gives it.
-/

set_option autoImplicit false

namespace LexKit

inductive Operation where
  -- allocators and blocks
  | allocate | free | reset | close | used | remaining | view | isEmpty | stop | start | storage
  -- buffers and texts
  | push | extend | append | pop | clear | reserve | resize | copy | take | toList | capacity
  | itemSize | isInline | allocator | content | rawBytes
  -- cursors and tables
  | peek | startsWith | advance | skipWhitespace | skipWhile | skipToLineEnd | slice | atEnd
  | scanned | matchAt | accepts
  -- scanning and its results
  | tokenize | isSuccess | tokens | toError | name | value | kind | type | message | position
  | source | line | column | marker | strictStrings | symbols | literal | isWord
  -- making objects of the same type, and checks that need no object
  | textOfBytes | textOfString | tableOfPairs | entryOf | validate
  -- what several types share
  | release | size | offset | format | get | set | length | truth | bytes | enter | leave
  -- what every object has
  | members | addInPlace | text | shown
deriving DecidableEq, Repr

namespace SessionM

open Method

/-! ## Memory -/

def arenaMethod? (session : Session) (id : AllocatorId) (arena : Arena) :
    Operation → Option Method
  | .capacity => some (part (ofQuantity (session.capacityOf arena)))
  | .used => some (part (ofQuantity (session.usedOf id arena)))
  | .remaining => some (part (ofQuantity (session.remainingOf id arena)))
  | _ => none

def allocatorMethod? (session : Session) (id : AllocatorId) (operation : Operation) :
    Option Method :=
  match operation with
  | .allocate => some (unary (allocate id))
  | .free => some (unary (free id))
  | .reset => some (nullary (done (reset id)))
  | .close => some (nullary (done (close id)))
  | .leave => some (part (done (close id)))
  | .enter => some (nullary (return .allocator id))
  | operation =>
      match session.memory.allocator id with
      | .arena arena => arenaMethod? session id arena operation
      | .heap => none

def blockMethod? (session : Session) (id : BlockId) : Operation → Option Method
  | .view => some (nullary do addWindow (← windowOver (session.block id)))
  | .release => some (nullary (done (release (.block id))))
  | .isEmpty => some (part (return Object.bool (session.block id).storage.isNone))
  | .stop => some (part (sum (session.block id).start (session.block id).size))
  | .size => some (part (return (session.block id).size))
  | .start => some (part (return (session.block id).start))
  | .storage => some (part (return (session.block id).storage))
  | _ => none

def textMethod? (id : BufferId) : Operation → Option Method
  | .append => some (unary fun data => done (append id data))
  | .content => some (nullary do return Object.bytes (← content id))
  | .bytes => some (nullary do return Object.bytes (← content id))
  | .textOfBytes => some (binary fun data allocator => textOf allocator data)
  | .textOfString => some (binary textOfString)
  | _ => none

def bufferMethod? (session : Session) (id : BufferId) (operation : Operation) : Option Method :=
  match operation with
  | .push => some (unary fun value => done (push id value))
  | .extend => some (unary fun values => done (extend id values))
  | .pop => some (nullary (pop id))
  | .clear => some (nullary (done (recount id BufferM.clear)))
  | .reserve => some (unary fun capacity => done (reserve id capacity))
  | .resize => some (unary fun count => done (resize id count))
  | .copy => some (nullary (copyBuffer id))
  | .take => some (nullary (takeBuffer id))
  | .release => some (nullary (done (release (.buffer id))))
  | .leave => some (part (done (release (.buffer id))))
  | .enter => some (nullary (return .buffer id))
  | .toList => some (nullary do addList (← elements id))
  | .capacity => some (part do return Object.nat (← capacityOfBuffer id))
  | .itemSize => some (part (return Object.nat (session.buffer id).layout.size))
  | .format => some (part (return session.patternOf id))
  | .isInline => some (part (return Object.bool (session.buffer id).isInline))
  | .allocator => some (part (return session.allocatorOf id))
  | .rawBytes =>
      some (part (return Object.bytes ((session.buffer id).rawBytes session.memory)))
  | .get => some (unary (item (.buffer id)))
  | .set => some (binary fun index value => done (setItem id index value))
  | .truth => some (nullary (return Object.bool (session.truth (.buffer id))))
  | operation => if session.isText id then textMethod? id operation else none

/-! ## Scanning -/

def cursorMethod? (session : Session) (id : CursorId) : Operation → Option Method
  | .peek => some (unaryOr (some (Object.nat 0)) (peek id))
  | .startsWith => some (unary (startsWith id))
  | .advance => some (unaryOr (some (Object.nat 1)) fun count => done (advance id count))
  | .skipWhitespace => some (nullary (skipWhile id .whitespace))
  | .skipWhile => some (unary fun name => do skipWhile id (← byteClassOf name))
  | .skipToLineEnd => some (nullary (done (skipToLineEnd id)))
  | .slice => some (unary (slice id))
  | .atEnd => some (part (return Object.bool (session.reader id).atEnd))
  | .size => some (part (return Object.nat (session.reader id).bytes.length))
  | .scanned => some (part (return (session.reader id).source))
  | _ => none

def tokenMethod? (variant : TokenVariant) (payload : Object) (token : Object) :
    Operation → Option Method
  | .type => some (part (return kindOf variant payload))
  | .release => some (nullary (done (release token)))
  | .kind => if variant = .symbol then some (part (return payload)) else none
  | .name => if variant = .identifier then some (part (nameOf token)) else none
  | .value =>
      if variant = .number ∨ variant = .string then some (part (return payload)) else none
  | _ => none

def errorMethod? (message position source error : Object) : Operation → Option Method
  | .message => some (part (return message))
  | .position => some (part (return position))
  | .source => some (part (return source))
  | .format => some (unaryOr (some defaultFileName) (format error))
  | _ => none

def rulesMethod? (marker strictStrings symbols : Object) : Operation → Option Method
  | .marker => some (part (return marker))
  | .strictStrings => some (part (return strictStrings))
  | .symbols => some (part (return symbols))
  | _ => none

def entryMethod? (entry : SymbolEntry) : Operation → Option Method
  | .literal => some (part (return Object.bytes entry.literal))
  | .type => some (part (return .kind entry.kind))
  | .isWord => some (part (return Object.bool entry.isWord))
  | .accepts => some (unary fun place => do return Object.bool (← acceptsAt entry place))
  | .entryOf => some (binary entryOf)
  | _ => none

def tableMethod? (table : SymbolTable) : Operation → Option Method
  | .matchAt => some (unary fun place => matchAt place table.entries)
  | .tableOfPairs => some (unary tableOfPairs)
  | .validate => some (unary fun entries => done (validate entries))
  | _ => none

def positionMethod? (line column : Nat) : Operation → Option Method
  | .line => some (part (return Object.nat line))
  | .column => some (part (return Object.nat column))
  | _ => none

def successMethod? (tokens : List Object) : Operation → Option Method
  | .isSuccess => some (part (return Object.bool true))
  | .tokens => some (part (return .tuple tokens))
  | .release => some (nullary (done (releaseAll tokens)))
  | _ => none

def failureMethod? (message failure : Object) : Operation → Option Method
  | .isSuccess => some (part (return Object.bool false))
  | .message => some (part (return message))
  | .toError => some (unary (toError failure))
  | _ => none

/-! ## Values -/

def beginsWith (object literal : Object) : SessionM Object := do
  match object, literal, ← heldBytes? object, ← heldBytes? literal with
  | _, _, some bytes, some literal => return Object.bool (literal.isPrefixOf bytes)
  | .value (.text text) _, .value (.text literal) _, _, _ =>
      return Object.bool (literal.toList.isPrefixOf text.toList)
  | _, .tuple [], _, _ => return Object.bool false
  | _, _, _, _ => fail .wrongType

def textValueMethod? (object : Object) : Operation → Option Method
  | .get => some (unary (item object))
  | .startsWith => some (unary (beginsWith object))
  | _ => none

/-- Text without braces is its own format, whatever is to be filled in. -/
def stringMethod? (object : Object) (text : String) : Operation → Option Method
  | .format =>
      if text.any fun char => char == '\x7b' || char == '\x7d' then none
      else some (part (return object))
  | operation => textValueMethod? object operation

def bytesMethod? (object : Object) : Operation → Option Method
  | .bytes => some (nullary (return object))
  | operation => textValueMethod? object operation

/-- A member is taken from the end unless an index is given. -/
def lastIndex : Object :=
  Object.int (-1)

def storageMethod? (id : StorageId) : Operation → Option Method
  | .append => some (unary fun byte => done (appendToStorage id byte))
  | .extend => some (unary fun numbers => done (extendStorage id numbers))
  | .pop => some (unaryOr (some lastIndex) (popFromStorage id))
  | .clear => some (nullary (done (changeStorage id fun _ => [])))
  | .copy => some (nullary (copy (.storage id)))
  | .set => some (binary fun index value => done (setInStorage id index value))
  | operation => textValueMethod? (.storage id) operation

def listMethod? (id : ListId) : Operation → Option Method
  | .append => some (unary fun object => done (appendToList id object))
  | .extend => some (unary fun objects => done (extendList id objects))
  | .pop => some (unaryOr (some lastIndex) (popFromList id))
  | .clear => some (nullary (done (setList id [])))
  | .copy => some (nullary (copy (.list id)))
  | .get => some (unary (item (.list id)))
  | .set => some (binary fun index value => done (setInList id index value))
  | _ => none

def tupleMethod? (objects : List Object) : Operation → Option Method
  | .get => some (unary (item (.tuple objects)))
  | _ => none

/-- A window answers nothing but its release once it is released. -/
def openWindow (id : WindowId) (answer : SessionM Object) : SessionM Object := do
  let _ ← windowBytes id
  answer

def windowMethod? (session : Session) (id : WindowId) : Operation → Option Method
  | .get => some (unary (item (.window id)))
  | .set => some (binary fun index value => done (setThrough (session.window id) index value))
  | .toList => some (nullary do addList (← members (.window id)))
  | .itemSize => some (part (openWindow id (return Object.nat 1)))
  | .format => some (part (openWindow id (return Object.text Layout.byteLayout.pattern)))
  | .enter => some (nullary (openWindow id (return .window id)))
  | .release => some (nullary (done (releaseWindow id)))
  | .leave => some (part (done (releaseWindow id)))
  | _ => none

def asByte (number : Int) : SessionM Object :=
  if 0 ≤ number ∧ number < 256 then return Object.bytes [UInt8.ofNat number.toNat]
  else fail .sizeOverflow

def valueMethod? (session : Session) (object : Object) : Operation → Option Method
  | .truth => some (nullary (return Object.bool (session.truth object)))
  | .content => object.int?.map fun number => nullary (asByte number)
  | _ => none

def kindMethod? (kind : TokenKind) : Operation → Option Method
  | .name => some (part (nameOf (.kind kind)))
  | .value => some (part (return Object.nat kind.ordinal))
  | _ => none

/-! ## Dispatch -/

def ownMethod? (session : Session) (object : Object) : Operation → Option Method :=
  match object with
  | .value (.text text) _ => stringMethod? object text
  | .value (.bytes _) _ => bytesMethod? object
  | .storage id => storageMethod? id
  | .list id => listMethod? id
  | .tuple objects => tupleMethod? objects
  | .window id => windowMethod? session id
  | .value .. => valueMethod? session object
  | .kind kind => kindMethod? kind
  | .allocator id => allocatorMethod? session id
  | .block id => blockMethod? session id
  | .buffer id => bufferMethod? session id
  | .cursor id => cursorMethod? session id
  | .rules marker strictStrings symbols => rulesMethod? marker strictStrings symbols
  | .lexer .. => fun
    | .tokenize => some (nullary (tokenize object))
    | _ => none
  | .token variant payload _ => tokenMethod? variant payload object
  | .success tokens => successMethod? tokens
  | .failure _ message => failureMethod? message object
  | .error _ message position source _ => errorMethod? message position source object
  | .position line column _ => positionMethod? line column
  | .entry entry => entryMethod? entry
  | .table _ table => tableMethod? table

def offsetMethod? : Object → Option Method
  | .token _ _ offset => some (part (return offset))
  | .failure offset _ => some (part (return offset))
  | .cursor id => some (part (offsetOf (.cursor id)))
  | .position _ _ offset => some (part (ofQuantity offset))
  | _ => none

/-- The length of an object that has one. That of a buffer is its count, whatever that is. -/
def lengthMethod? (session : Session) (object : Object) : Option Method :=
  match object with
  | .value (.text _) _ | .value (.bytes _) _ | .storage _ | .list _ | .tuple _ | .window _
  | .table .. =>
      some (nullary do return Object.nat ((← length? object).getD 0))
  | .buffer id => some (nullary (ofQuantity (session.countOf id)))
  | _ => none

def method? (session : Session) (object : Object) (operation : Operation) : Option Method :=
  match operation with
  | .members => some (nullary do addList (← members object))
  | .addInPlace => some (unary (addInPlace object))
  | .text => some (nullary do return Object.text (← asText object))
  | .shown => some (nullary do return Object.text (← shown object))
  | .offset => offsetMethod? object
  | .length => lengthMethod? session object
  | operation => ownMethod? session object operation

def perform (object : Object) (operation : Operation) (arguments : CallArguments) :
    SessionM Object := do
  match method? (← get) object operation with
  | some method => method.apply arguments
  | none => fail .unsupported

end SessionM

end LexKit
