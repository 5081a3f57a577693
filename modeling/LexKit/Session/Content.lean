import LexKit.Session.Basic

/-!
# What objects hold

The bytes that an object holds or stands for, the members that it lists, and single members.
-/

set_option autoImplicit false

namespace LexKit.SessionM

/-- The elements of a buffer as values. They can be gone through only up to a whole count. -/
def valuesOf (id : BufferId) : SessionM (List Value) := do
  let session ← get
  if session.hasRealCount id && !(session.countOf id).isZero then fail .wrongType
  onBuffer id BufferM.toList

def elements (id : BufferId) : SessionM (List Object) := do
  (← valuesOf id).mapM ofValue

def content (id : BufferId) : SessionM Bytes := do
  let session ← get
  if session.hasRealCount id then fail .wrongType
  return session.workspace.content id

def windowBytes (id : WindowId) : SessionM Bytes := do
  let session ← get
  let window := session.window id
  if window.isReleased then throw .released
  return (session.memory.storage window.storage).read window.first window.count

/-- The members of an object that lists some: the characters of a text, the numbers of bytes, the
entries of a table, the elements of a buffer. -/
def members (object : Object) : SessionM (List Object) := do
  match object with
  | .list id => return (← get).list id
  | .tuple objects => return objects
  | .table _ table => return Object.ofEntries table
  | .value (.text text) _ => return text.toList.map fun char => Object.text (String.singleton char)
  | .value (.bytes bytes) _ => return Object.numbers bytes
  | .storage id => return Object.numbers ((← get).storageBytes id)
  | .window id => return Object.numbers (← windowBytes id)
  | .buffer id => elements id
  | _ => fail .wrongType

/-- An object counts as true. A released window counts as nothing. -/
def truthOf (object : Object) : SessionM Bool := do
  let session ← get
  match object with
  | .window id => if (session.window id).isReleased then throw .released
  | _ => pure ()
  return session.truth object

/-- The bytes of an object that holds bytes itself; text and buffers do not. -/
def heldBytes? (object : Object) : SessionM (Option Bytes) := do
  match object with
  | .value (.bytes bytes) _ => return some bytes
  | .storage id => return some ((← get).storageBytes id)
  | .window id => return some (← windowBytes id)
  | _ => return none

/-- The bytes of an object that shows bytes at the time; a released window shows none. -/
def shownBytes? (object : Object) : SessionM (Option Bytes) := do
  match object with
  | .window id => if ((← get).window id).isReleased then return none else heldBytes? object
  | object => heldBytes? object

def textBytes (object : Object) : SessionM Bytes := do
  let session ← get
  match object, ← heldBytes? object with
  | _, some bytes => return bytes
  | .value (.text text) _, none => return Utf8.encode text
  | .buffer id, none =>
      if session.isText id then content id
      else fail (.notText (session.typeName object))
  | other, none => fail (.notText (session.typeName other))

def byteOf (object : Object) : SessionM UInt8 := do
  let number ← intOf object
  if 0 ≤ number ∧ number < 256 then return UInt8.ofNat number.toNat else fail .notByte

/-- The bytes of the numbers that an object lists, or as many zeros as a number says. -/
def bytesOfNumbers (object : Object) : SessionM Bytes := do
  match object.int? with
  | some size => return List.replicate (← ofExcept ((← get).memory.zeroCount size)) 0
  | none => (← members object).mapM byteOf

/-- The bytes that an object stands for: bytes and texts for their content, numbers for zeros, and
anything that lists small numbers for these. -/
def bytesOf (object : Object) : SessionM Bytes := do
  match object, ← heldBytes? object with
  | _, some bytes => return bytes
  | .value (.text _) _, none => fail .wrongType
  | .buffer id, none => if (← get).isText id then content id else bytesOfNumbers object
  | object, none => bytesOfNumbers object

def sourceOf (object : Object) : SessionM Bytes :=
  match object with
  | .value (.text text) _ => return Utf8.encode text
  | other => bytesOf other

def newStorage (object : Object) : SessionM Object := do
  match object.int? with
  | some size =>
      if size < -(maxSize + 1) then fail .sizeOverflow
      if size < 0 then fail .negativeFill
      return .storage (← onMemory (Memory.newStorage size))
  | none => addStorage (Storage.ofBytes (← bytesOf object))

def length? (object : Object) : SessionM (Option Nat) := do
  match object with
  | .buffer id =>
      if (← get).hasRealCount id then fail .wrongType
      return some ((← get).buffer id).count
  | .value (.text text) _ => return some text.length
  | .value (.bytes bytes) _ => return some bytes.length
  | .storage id => return some ((← get).memory.storage id).size
  | .list id => return some ((← get).list id).length
  | .tuple objects => return some objects.length
  | .window id => return some (← windowBytes id).length
  | .table _ table => return some table.entries.length
  | _ => return none

/-- The place of an index among `count` members. The index may count from the end. -/
def placeOf (count : Nat) (index : Object) : SessionM Nat := do
  let index ← intOf index
  let place := if index < 0 then index + count else index
  if 0 ≤ place ∧ place < count then return place.toNat else fail .positionOutOfRange

/-- The member at an index. Buffers count from the beginning only. -/
def item (object index : Object) : SessionM Object := do
  match object with
  | .buffer id => ofValue (← onBuffer id (BufferM.get (← quantityOf index)))
  | .table .. => fail .wrongType
  | object =>
      let listed ← members object
      let place ← placeOf listed.length index
      match listed[place]? with
      | some member => return member
      | none => fail .positionOutOfRange

end LexKit.SessionM
