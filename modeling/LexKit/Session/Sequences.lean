import LexKit.Session.Buffers

/-!
# Sequences that change

Lists and storages change member by member, and they grow and shrink. An index may count from the
end. What was made from a list or a storage before, like a table or a text, does not change with it;
blocks and windows onto a storage do.
-/

set_option autoImplicit false

namespace LexKit.SessionM

/-! ## Lists -/

def appendToList (id : ListId) (object : Object) : SessionM Unit := do
  setList id ((← get).list id ++ [object])

def extendList (id : ListId) (object : Object) : SessionM Unit := do
  let added ← members object
  setList id ((← get).list id ++ added)

def setInList (id : ListId) (index value : Object) : SessionM Unit := do
  let objects := (← get).list id
  setList id (objects.set (← placeOf objects.length index) value)

/-- The place of a member that is to be taken out. The index must be one that the machine can
count. -/
def placeToTake (count : Nat) (index : Object) : SessionM Nat := do
  if (← intOf index).natAbs > maxSize.toNat then fail .sizeOverflow
  placeOf count index

def popFromList (id : ListId) (index : Object) : SessionM Object := do
  let objects := (← get).list id
  let place ← placeToTake objects.length index
  setList id (objects.eraseIdx place)
  return objects.getD place Object.none

/-! ## Storages -/

def changeStorage (id : StorageId) (change : Bytes → Bytes) : SessionM Unit := do
  let before := (← get).storageBytes id
  let after := change before
  if after.length ≠ before.length then checkResizable id
  onMemory (modify fun memory => memory.updateStorage id fun _ => Storage.ofBytes after)

def appendToStorage (id : StorageId) (object : Object) : SessionM Unit := do
  let byte ← byteOf object
  changeStorage id (· ++ [byte])

/-- Appends to a storage what an object shows, or the small numbers that it lists. -/
def extendStorage (id : StorageId) (object : Object) : SessionM Unit := do
  let added ←
    match object with
    | .window _ => joinable object
    | object => (← members object).mapM byteOf
  changeStorage id (· ++ added)

/-- Replaces a byte of a storage. The value is checked before the bounds of the index. -/
def setInStorage (id : StorageId) (index value : Object) : SessionM Unit := do
  if (← intOf index).natAbs > maxSize.toNat then fail .positionOutOfRange
  let byte ← byteOf value
  let place ← placeOf ((← get).memory.storage id).size index
  onMemory (modify fun memory => memory.write id place [byte])

def popFromStorage (id : StorageId) (index : Object) : SessionM Object := do
  let bytes := (← get).storageBytes id
  let place ← placeToTake bytes.length index
  changeStorage id (·.eraseIdx place)
  return Object.nat (bytes.getD place 0).toNat

/-! ## Sums -/

/-- Appends bytes to a storage, but not its own, which are viewed meanwhile. -/
def joinToStorage (id : StorageId) (object : Object) : SessionM Unit := do
  let added ← joinable object
  if object.isIdentical (.storage id) && !added.isEmpty then throw .viewed
  changeStorage id (· ++ added)

/-- Adds to an object that can grow; any other one is replaced by the sum. -/
def addInPlace (object other : Object) : SessionM Object := do
  match object with
  | .buffer id =>
      if !(← get).isText id then fail .wrongType
      append id other
      return object
  | .storage id =>
      joinToStorage id other
      return object
  | .list id =>
      extendList id other
      return object
  | object => sum object other

end LexKit.SessionM
