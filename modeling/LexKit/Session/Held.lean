import LexKit.Session.Basic

/-!
# What is held

Objects refer to objects, and those that nothing refers to are gone. The user holds the objects that
he has named; all that they lead to is held as well. A storage that an open window shows cannot
change its size as long as the window is held.
-/

set_option autoImplicit false

namespace LexKit

namespace Session

def parts (session : Session) : Object → List Object
  | .block id =>
      let block := session.block id
      [block.storage, block.start, block.size]
  | .buffer id => [session.allocatorOf id]
  | .rules marker strictStrings symbols => [marker, strictStrings, symbols]
  | .lexer _ _ allocator _ strictStrings symbols => [allocator, strictStrings, symbols]
  | .token _ payload offset => [payload, offset]
  | .success tokens => tokens
  | .failure offset message => [offset, message]
  | .error _ message position source _ => [message, position, source]
  | .list id => session.list id
  | .tuple objects => objects
  | _ => []

/-- The pending objects lead to a wanted one, unless only by those passed already. -/
def leadsTo (session : Session) (wanted : Object → Bool) :
    Nat → List Object → List Object → Bool
  | 0, _, _ => false
  | _ + 1, _, [] => false
  | steps + 1, passed, object :: pending =>
      let parts := session.parts object
      if wanted object then true
      else if parts.isEmpty || passed.any (·.isIdentical object) then
        session.leadsTo wanted steps passed pending
      else session.leadsTo wanted steps (object :: passed) (parts ++ pending)

def searchLimit : Nat :=
  100000

/-- An open window onto a storage is held. -/
def isViewed (session : Session) (storage : StorageId) : Bool :=
  let shows : Object → Bool
    | .window id =>
        let window := session.window id
        window.storage == storage && !window.isReleased
    | _ => false
  session.leadsTo shows searchLimit [] session.held

end Session

namespace SessionM

def hold (objects : List Object) : SessionM Unit :=
  modify fun session => { session with held := objects }

/-- Refuses to change the size of a storage that is viewed. -/
def checkResizable (storage : StorageId) : SessionM Unit := do
  if (← get).isViewed storage then throw .viewed

end SessionM

end LexKit
