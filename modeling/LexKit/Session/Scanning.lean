import LexKit.Cursor
import LexKit.Session.Sequences
import LexKit.Session.Shown

/-!
# Cursors, tables, lexers and reports of a session
-/

set_option autoImplicit false

namespace LexKit.SessionM

/-! ## Cursors -/

/-- The cursor at an offset that is an integer. Between two bytes nothing can be read. -/
def cursorAt (reader : Reader) : SessionM Cursor :=
  match reader.offset.whole? with
  | some offset => return ⟨reader.bytes, offset⟩
  | none => fail .wrongType

/-- The byte that lies `ahead` bytes further on, or none past the end. -/
def peek (id : CursorId) (ahead : Object) : SessionM Object := do
  let reader := (← get).reader id
  let index ← sumOf reader.offset (← quantityOf ahead)
  if !index.isLess (.int reader.bytes.length) then return Object.none
  match index.whole? with
  | some place =>
      let byte ← ofExcept ((Cursor.ofBytes reader.bytes).byteAt place)
      return Object.nat byte.toNat
  | none => fail .wrongType

def advance (id : CursorId) (count : Object) : SessionM Unit := do
  let reader := (← get).reader id
  let size : Quantity := .int reader.bytes.length
  let moved ← sumOf reader.offset (← quantityOf count)
  setCursor id { reader with offset := if moved.isLess size then moved else size }

/-- The bytes at a cursor begin with a literal. With none of no literals they do. -/
def startsWith (id : CursorId) (literal : Object) : SessionM Object := do
  let cursor ← cursorAt ((← get).reader id)
  match literal, ← heldBytes? literal with
  | _, some literal => return Object.bool (cursor.startsWith literal)
  | .tuple [], none => return Object.bool false
  | _, none => fail .wrongType

def skipWhile (id : CursorId) (byteClass : ByteClass) : SessionM Object := do
  let reader := (← get).reader id
  let cursor ← cursorAt reader
  let moved ← ofExcept (cursor.skipWhile byteClass)
  setCursor id { reader with offset := .int moved.offset }
  return Object.int (moved.offset - cursor.offset)

mutual

/-- Why an object cannot be looked up as a name: it may still change, or it holds such a thing. -/
def nameFault? (session : Session) : Object → Option SessionFault
  | .storage _ => some (.memory .wrongType)
  | .block _ => some (.memory .wrongType)
  | .buffer _ => some (.memory .wrongType)
  | .list _ => some (.memory .wrongType)
  | .window id =>
      let window := session.window id
      if window.isReleased || !window.isReadOnly then some .changeable else none
  | .token _ payload offset => (nameFault? session payload).or (nameFault? session offset)
  | .failure offset message => (nameFault? session offset).or (nameFault? session message)
  | .rules marker strictStrings symbols =>
      (nameFault? session marker).or
        ((nameFault? session strictStrings).or (nameFault? session symbols))
  | .success tokens => firstNameFault? session tokens
  | .tuple objects => firstNameFault? session objects
  | _ => none

def firstNameFault? (session : Session) : List Object → Option SessionFault
  | [] => none
  | object :: rest => (nameFault? session object).or (firstNameFault? session rest)

end

def byteClassOf (name : Object) : SessionM ByteClass := do
  if let some fault := nameFault? (← get) name then throw fault
  match name with
  | .value (.text name) _ =>
      match [("letter", ByteClass.letter), ("digit", .digit), ("whitespace", .whitespace),
          ("ident", .identifierPart)].lookup name with
      | some byteClass => return byteClass
      | none => throw .unknownName
  | _ => throw .unknownName

def skipToLineEnd (id : CursorId) : SessionM Unit := do
  let reader := (← get).reader id
  let cursor ← cursorAt reader
  setCursor id { reader with offset := .int cursor.skipToLineEnd.offset }

/-- The bytes from `start` up to the cursor; none stands for the beginning. -/
def slice (id : CursorId) (start : Object) : SessionM Object := do
  let cursor ← cursorAt ((← get).reader id)
  return Object.bytes (cursor.slice (← if start.isNone then pure 0 else intOf start))

/-! ## Symbols -/

/-- The entry is accepted at a cursor. Bytes can be asked for what they begin with, but not for what
follows a word. -/
def acceptsAt (entry : SymbolEntry) (place : Object) : SessionM Bool := do
  match place, ← heldBytes? place with
  | .window _, _ => fail .unsupported
  | _, some bytes =>
      if !entry.literal.isPrefixOf bytes then return false
      if entry.isWord then fail .unsupported else return true
  | .cursor id, none => ofExcept ((← cursorAt ((← get).reader id)).accepts entry)
  | .value (.text _) _, none => fail .wrongType
  | _, none => fail .unsupported

def matchAt (place : Object) : List SymbolEntry → SessionM Object
  | [] => return Object.none
  | entry :: rest => do
      if ← acceptsAt entry place then return .entry entry else matchAt place rest

/-- The entries in front of the first object that is none. -/
def entriesBefore : List Object → List SymbolEntry
  | .entry entry :: rest => entry :: entriesBefore rest
  | _ => []

def newTable (object : Object) : SessionM Object := do
  let objects ← members object
  let entries := entriesBefore objects
  if let some faulty := entries.find? (!SymbolTable.isAdmissible ·) then
    throw (.symbols (SymbolTable.entryFault faulty))
  if entries.length < objects.length then fail .unsupported
  match SymbolTable.ofEntries entries with
  | .ok table => addTable table
  | .error fault => throw (.symbols fault)

/-- Checks entries that are given in order. A single object is not looked at. -/
def validate (object : Object) : SessionM Unit := do
  let objects ← members object
  let entries := entriesBefore objects
  if objects.length ≤ 1 then return ()
  match entries with
  | [] => fail .unsupported
  | first :: later =>
      if let some longer := SymbolTable.shadowedBy? first later then
        throw (.symbols (SymbolTable.shadowFault first longer))
      if entries.length < objects.length then fail .unsupported
      match SymbolTable.validate later with
      | .ok _ => return ()
      | .error fault => throw (.symbols fault)

def entryOf (literal kind : Object) : SessionM Object :=
  match literal, kind with
  | .value (.text literal) _, .kind kind => return .entry (SymbolEntry.ofText literal kind)
  | _, _ => fail .unsupported

def pairOf (object : Object) : SessionM (String × TokenKind) := do
  match ← members object with
  | [.value (.text literal) _, .kind kind] => return (literal, kind)
  | [_, .kind _] => fail .unsupported
  | _ => fail .wrongType

def tableOfPairs (object : Object) : SessionM Object := do
  let pairs ← (← members object).mapM pairOf
  match SymbolTable.ofPairs pairs with
  | .ok table => addTable table
  | .error fault => throw (.symbols fault)

/-! ## Lexers -/

def defaultRules : Object :=
  .rules (Object.text ScanRules.default.marker) (Object.bool false) Object.defaultTable

/-- New rules. All that is required of them is a marker that counts as true. -/
def newRules (marker strictStrings symbols : Object) : SessionM Object := do
  if !(← truthOf marker) then throw .emptyMarker
  return .rules marker strictStrings symbols

/-- A lexer for a source. The marker of its rules must be text by now. -/
def newLexer (source allocator rules : Object) : SessionM Object := do
  let bytes ← sourceOf source
  match if rules.isNone then defaultRules else rules with
  | .rules (.value (.text marker) _) strictStrings symbols =>
      return .lexer (← newMark) bytes allocator marker strictStrings symbols
  | _ => fail .unsupported

/-- An object that is a window and was released. It counts as nothing, neither true nor false. -/
def isReleased (object : Object) : SessionM Bool := do
  match object with
  | .window id => return ((← get).window id).isReleased
  | _ => return false

/-- Tokenizes a source. Without a table a scan ends where it would need one, and where it cannot be
told whether strings are strict it ends with the first one that is unterminated. -/
def scan (source : Bytes) (allocator : Object) (marker : String) (strictStrings symbols : Object) :
    SessionM Object := do
  let untold ← isReleased strictStrings
  let strict := untold || (← get).truth strictStrings
  let rulesOver := fun (table : SymbolTable) => do
    match ScanRules.ofMarker? marker strict table with
    | some rules => return rules
    | none => throw .emptyMarker
  match symbols with
  | .table _ table =>
      let lexer : Lexer := ⟨source, ← allocatorFor allocator, ← rulesOver table⟩
      let outcome ← onWorkspace (WorkspaceM.tokenize lexer)
      if untold && outcome.endsUnterminated then throw .released
      return Object.ofOutcome outcome
  | _ =>
      let place := Scan.skipTrivia (← rulesOver SymbolTable.default) (Place.start source)
      if place.rest.isEmpty then return .success [] else fail .unsupported

def tokenize (lexer : Object) : SessionM Object :=
  match lexer with
  | .lexer _ source allocator marker strictStrings symbols =>
      scan source allocator marker strictStrings symbols
  | _ => fail .unsupported

/-- Tokenizes a source over an allocator, or else over a new heap. -/
def tokenizeSource (source allocator rules : Object) : SessionM Object := do
  let allocator ←
    if allocator.isNone then pure (Object.allocator (← onMemory Memory.newHeap))
    else pure allocator
  tokenize (← newLexer source allocator rules)

/-! ## Positions and reports -/

/-- The position of an offset, which is moved to the nearer end of the source if it lies outside.
The source must hold bytes. -/
def positionAt (source offset : Object) : SessionM Object := do
  let some size ← length? source | fail .wrongType
  let offset ← quantityOf offset
  let least := if Quantity.isLess (.int size) offset then .int size else offset
  let place := if Quantity.isLess (.int 0) least then least else .int 0
  match source, ← heldBytes? source with
  | .window _, _ => fail .unsupported
  | _, some bytes =>
      match place.whole? with
      | some whole =>
          let position := Position.ofOffset bytes whole
          return .position position.line position.column place
      | none => fail .wrongType
  | .buffer _, none => fail .unsupported
  | .table .., none => fail .unsupported
  | _, none => fail .wrongType

def reportOf (message position source fileName : Object) : SessionM String := do
  match position, ← heldBytes? source with
  | .position line column offset, some bytes =>
      let place : Position := ⟨line, column, (offset.whole?.getD 0).toNat⟩
      return LexError.format ⟨← asText message, place, bytes⟩ (← asText fileName)
  | _, _ => fail .unsupported

def defaultFileName : Object :=
  Object.text LexError.defaultFileName

/-- The failure that an argument must be: its offset and its message. -/
def failureOf (object : Object) : SessionM (Object × Object) :=
  match object with
  | .failure offset message => return (offset, message)
  | _ => fail .unsupported

def toError (failure source : Object) : SessionM Object := do
  let (offset, message) ← failureOf failure
  let source :=
    match source with
    | .value (.text text) _ => Object.bytes (Utf8.encode text)
    | other => other
  let position ← positionAt source offset
  let report ← reportOf message position source defaultFileName
  return .error (← newMark) message position source report

def format (error fileName : Object) : SessionM Object := do
  match error with
  | .error _ message position source _ =>
      return Object.text (← reportOf message position source fileName)
  | _ => fail .unsupported

/-! ## Tokens -/

mutual

/-- Gives back what an object holds. Symbols and numbers hold nothing. -/
def release : Object → SessionM Unit
  | .block id => setBlock id PlacedBlock.empty
  | .window id => releaseWindow id
  | .buffer id => recount id BufferM.release
  | .token .symbol _ _ => return ()
  | .token .number _ _ => return ()
  | .token .identifier payload _ => release payload
  | .token .string payload _ => release payload
  | .success tokens => releaseAll tokens
  | _ => fail .unsupported

def releaseAll : List Object → SessionM Unit
  | [] => return ()
  | object :: rest => do
      release object
      releaseAll rest

end

/-- What a token carries; a kind of tokens has its number. -/
def payloadOf (object : Object) : SessionM Object :=
  match object with
  | .token .symbol _ _ => fail .unsupported
  | .token _ payload _ => return payload
  | .kind kind => return Object.nat kind.ordinal
  | _ => fail .unsupported

def kindOf (variant : TokenVariant) (payload : Object) : Object :=
  match variant with
  | .symbol => payload
  | .identifier => .kind .identifier
  | .number => .kind .numericLiteral
  | .string => .kind .stringLiteral

def tokensOf (object : Object) : SessionM (List Object) :=
  match object with
  | .success tokens => return tokens
  | _ => fail .unsupported

/-- The listing of a source that is scanned over an arena of the given capacity, or over the heap if
there is none. -/
def listSource (source marker strictStrings capacity : Object) : SessionM Object := do
  let rules ← newRules marker strictStrings Object.defaultTable
  let allocator ←
    if ← truthOf capacity then newArena capacity
    else pure (Object.allocator (← onMemory Memory.newHeap))
  match ← tokenize (← newLexer source allocator rules) with
  | .success tokens =>
      let text ← listing tokens
      releaseAll tokens
      return Object.text text
  | failure =>
      match ← toError failure source with
      | .error _ _ _ _ report => throw (.lexical report)
      | _ => fail .unsupported

end LexKit.SessionM
