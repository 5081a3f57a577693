import LexKit.Session.Storing
import LexKit.Text.Pieces

/-!
# Buffers and texts of a session
-/

set_option autoImplicit false

namespace LexKit.SessionM

/-- How many elements a buffer is to hold inline. No real number is a count, and one that is not
positive asks for none. -/
def inlineCountOf (object : Object) : SessionM Int := do
  let quantity ← quantityOf object
  match quantity.whole? with
  | some count => return count
  | none => if Quantity.isLess (.int 0) quantity then fail .wrongType else return 0

/-- A new buffer. Its pattern is text or bytes, in ASCII. -/
def newBuffer (allocator pattern inlineCapacity : Object) : SessionM Object := do
  let (text, isBytes) ←
    match pattern with
    | .value (.text text) _ => pure (text, false)
    | .value (.bytes bytes) _ => pure (String.ofList (Utf8.decodeAscii bytes), true)
    | _ => fail .wrongType
  if !isBytes && text.any (· ≥ '\x80') then throw .notAscii
  if (Layout.ofPattern? text).isNone then fail .invalidFormat
  let count ← inlineCountOf inlineCapacity
  let id ← onWorkspace (WorkspaceM.newBuffer (← allocatorFor allocator) text count)
  if isBytes then
    modify fun session => { session with bytePatterns := id :: session.bytePatterns }
  return .buffer id

def newText (allocator inlineCapacity : Object) : SessionM Object := do
  let count ← inlineCountOf inlineCapacity
  return .buffer (← onWorkspace (WorkspaceM.newText (← allocatorFor allocator) count))

/-- A buffer that was made from another one has its pattern. -/
def inheritPattern (source id : BufferId) : SessionM Unit :=
  modify fun session =>
    if session.bytePatterns.contains source then
      { session with bytePatterns := id :: session.bytePatterns }
    else session

/-! ## Counts -/

def noteCount (id : BufferId) (count : Quantity) : SessionM Unit :=
  modify fun session => { session with counts := (id, count) :: session.counts }

/-- The count of a buffer is an integer again. -/
def forgetCount (id : BufferId) : SessionM Unit :=
  modify fun session =>
    { session with counts := session.counts.filter fun (buffer, _) => buffer != id }

/-- A buffer counts as many elements as another one, also where that is no integer. -/
def inheritCount (source id : BufferId) : SessionM Unit := do
  if let some count := (← get).counts.lookup source then noteCount id count

@[noinline]
def heldCount (id : BufferId) : SessionM Nat := do
  return ((← get).buffer id).count

/-- Runs an action that leaves an integer as the count of a buffer as soon as it changes the count,
and in any case if it succeeds. -/
def recounting {α : Type} (id : BufferId) (action : SessionM α) : SessionM α := do
  let before ← heldCount id
  try
    let result ← action
    forgetCount id
    return result
  catch fault =>
    if (← heldCount id) ≠ before then forgetCount id
    throw fault

/-- Runs an operation on a buffer that leaves an integer as its count. -/
def recount {α : Type} (id : BufferId) (operation : BufferM α) : SessionM α :=
  recounting id (onBuffer id operation)

def indicesBelow (bits : UInt64) : Nat :=
  if Quantity.isLess (.int 0) (.real bits) then (Float.ofBits bits).ceil.toUInt64.toNat else 0

/-! ## Room -/

def capacityOfBuffer (id : BufferId) : SessionM Nat := do
  ofExcept ((← get).buffer id).capacity

/-- Makes room for a number of elements. A real number may be compared with the capacity, but it is
no size of a block. -/
def reserve (id : BufferId) (capacity : Object) : SessionM Unit := do
  let buffer := (← get).buffer id
  let current ← capacityOfBuffer id
  let quantity ← quantityOf capacity
  match quantity.whole? with
  | some capacity => onBuffer id (BufferM.reserve capacity)
  | none =>
      if quantity.isAtMost (.int current) then return ()
      let _ ← allocate buffer.allocator (← ofQuantity (quantity.times buffer.layout.size))
      fail .wrongType

def resize (id : BufferId) (count : Object) : SessionM Unit := do
  let quantity ← quantityOf count
  if quantity.isNegative then fail (.negativeLength quantity)
  match quantity with
  | .int count => recount id (BufferM.resize count)
  | .flag flag =>
      recount id (BufferM.resize flag.toNat)
      noteCount id quantity
  | .real bits =>
      if Quantity.isLess (.int (← capacityOfBuffer id)) quantity then reserve id count
      recount id (BufferM.resize (indicesBelow bits))
      noteCount id quantity

/-! ## Elements -/

/-- Writes an object into a cleared place. It is looked at no sooner than now: of a truth item, it
may be the very buffer that is written to, which has its count at the time. -/
def fill (id : BufferId) (place : ItemPlace) (object : Object) : SessionM Unit := do
  let value ←
    match place.type with
    | .truth => pure (.bool (← truthOf object))
    | _ => pure ((← get).toValue object)
  onBuffer id (BufferM.fill place value)

def pushObject (id : BufferId) (object : Object) : SessionM Unit :=
  recounting id do
    fill id (← onBuffer id BufferM.openNext) object
    onBuffer id BufferM.countUp

/-- There is no place behind a count that is a real number. Room is made before that shows. -/
def push (id : BufferId) (object : Object) : SessionM Unit := do
  let session ← get
  if session.hasRealCount id then
    let capacity ← capacityOfBuffer id
    if (session.countOf id).order? (.int capacity) == some .eq then
      onBuffer id (BufferM.reserve (max Buffer.leastGrowth (2 * capacity) : Nat))
    fail (session.buffer id).misplacedFault
  match object with
  | .value value _ => recount id (BufferM.push value)
  | object => pushObject id object

/-- Appends bytes of a storage from an offset on, `count` of them. Each is read at its turn, so that
what was written meanwhile counts. -/
def extendByBytes (id : BufferId) (storage : StorageId) (start : Nat) : Nat → SessionM Unit
  | 0 => return ()
  | count + 1 => do
      let byte := ((← get).memory.storage storage).byte start
      push id (Object.nat byte.toNat)
      extendByBytes id storage (start + 1) count

def extend (id : BufferId) (object : Object) : SessionM Unit := do
  match object with
  | .storage storage => extendByBytes id storage 0 ((← get).memory.storage storage).size
  | .window window =>
      let shown := (← get).window window
      if shown.isReleased then throw .released
      extendByBytes id shown.storage shown.first shown.count
  | .buffer source =>
      let session ← get
      if session.hasRealCount source then
        let _ ← elements source
        return ()
      if session.hasRealCount id then
        if let first :: _ ← elements source then push id first
        return ()
      if (session.buffer source).count ≠ 0 then
        recounting id (onWorkspace (WorkspaceM.extendBy id source))
  | other => (← members other).forM (push id)

/-- The last element, which a buffer gives up. No element stands in front of a real number. -/
def pop (id : BufferId) : SessionM Object := do
  let count := (← get).countOf id
  if count.whole?.isNone && !count.isZero then
    let last ← sumOf count (.int (-1))
    if Quantity.isAtMost (.int 0) last then fail .wrongType else throw (.outOfRange last count)
  ofValue (← recount id BufferM.pop)

def setItem (id : BufferId) (index value : Object) : SessionM Unit := do
  let index ← quantityOf index
  fill id (← onBuffer id (BufferM.openAt index)) value

def appendBytes (id : BufferId) (bytes : Bytes) : SessionM Unit := do
  if bytes.isEmpty then return ()
  let session ← get
  if session.hasRealCount id then
    reserve id (← ofQuantity (← sumOf (session.countOf id) (.int bytes.length)))
    fail .wrongType
  recount id (BufferM.appendBytes bytes)

/-- Appends to a text one byte given as a number, or a run of bytes. -/
def append (id : BufferId) (object : Object) : SessionM Unit := do
  match object with
  | .value (.int _) _ => push id object
  | .value (.bool _) _ => push id object
  | other => appendBytes id (← textBytes other)

/-! ## Copies -/

def copyBuffer (id : BufferId) : SessionM Object := do
  let copy ← onWorkspace (WorkspaceM.copy id)
  let session ← get
  if session.hasRealCount id && !(session.countOf id).isZero then fail .wrongType
  inheritPattern id copy
  inheritCount id copy
  return .buffer copy

def takeBuffer (id : BufferId) : SessionM Object := do
  let moved ← onWorkspace (WorkspaceM.take id)
  inheritPattern id moved
  inheritCount id moved
  forgetCount id
  return .buffer moved

/-! ## Texts -/

def textOf (allocator data : Object) : SessionM Object := do
  let id ← onWorkspace (WorkspaceM.newText (← allocatorFor allocator) 0)
  append id data
  return .buffer id

def textOfString (text allocator : Object) : SessionM Object :=
  match text with
  | .value (.text _) _ => textOf allocator text
  | _ => fail .unsupported

def concat (allocator parts separator : Object) : SessionM Object := do
  let parts ← (← members parts).mapM textBytes
  let between ← if separator.isNone then pure [] else textBytes separator
  return .buffer (← onWorkspace (WorkspaceM.concat (← allocatorFor allocator) between parts))

def textsOf (allocator : Object) (pieces : List Bytes) : SessionM Object := do
  let ids ← onWorkspace (WorkspaceM.textsOf (← allocatorFor allocator) pieces)
  addList (ids.map .buffer)

def split (allocator data delimiter : Object) : SessionM Object := do
  let bytes ← textBytes data
  match ← textBytes delimiter with
  | [byte] => textsOf allocator (Text.split byte bytes)
  | other => fail (.delimiterLength other)

def splitLines (allocator data : Object) : SessionM Object := do
  textsOf allocator (Text.splitLines (← textBytes data))

end LexKit.SessionM
