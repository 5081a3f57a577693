import LexKit.Session.Same

/-!
# Sums and order of objects

Numbers can be added and compared, and so can sequences of one kind: they are joined, and the first
pair of members that differ decides which comes first. Bytes of all forms join to what the left ones
are; they are compared if both never change, or if one of them is a storage.
-/

set_option autoImplicit false

namespace LexKit.SessionM

def joinable (object : Object) : SessionM Bytes := do
  match ← shownBytes? object with
  | some bytes => return bytes
  | none => fail .wrongType

def sum (left right : Object) : SessionM Object := do
  match left.quantity?, right.quantity?, left, right with
  | some left, some right, _, _ => ofQuantity (← sumOf left right)
  | _, _, .value (.text left) _, .value (.text right) _ => return Object.text (left ++ right)
  | _, _, .tuple left, .tuple right => return .tuple (left ++ right)
  | _, _, .list left, .list right =>
      let session ← get
      addList (session.list left ++ session.list right)
  | _, _, .value (.bytes left) _, right => return Object.bytes (left ++ (← joinable right))
  | _, _, .storage left, right =>
      addStorage (Storage.ofBytes ((← get).storageBytes left ++ (← joinable right)))
  | _, _, _, _ => fail .wrongType

def areComparable : Object → Object → Bool
  | .value (.bytes _) _, .value (.bytes _) _ => true
  | .storage _, _ => true
  | _, .storage _ => true
  | _, _ => false

/-- The order of sequences: that of the first members that differ, else that of the lengths. -/
def isAtMostMembers (isAtMost : Object → Object → SessionM Bool) :
    List Object → List Object → SessionM Bool
  | [], _ => return true
  | _ :: _, [] => return false
  | left :: lefts, right :: rights => do
      if ← sameMember same left right then isAtMostMembers isAtMost lefts rights
      else isAtMost left right

def isAtMostBy (isAtMost : Object → Object → SessionM Bool) (left right : Object) :
    SessionM Bool := do
  let session ← get
  match left.quantity?, right.quantity?, left, right with
  | some left, some right, _, _ => return left.isAtMost right
  | _, _, .value (.text left) _, .value (.text right) _ => return !(right < left)
  | _, _, .list left, .list right =>
      isAtMostMembers isAtMost (session.list left) (session.list right)
  | _, _, .tuple left, .tuple right => isAtMostMembers isAtMost left right
  | _, _, left, right =>
      if !areComparable left right then fail .wrongType
      return !((← joinable right) < (← joinable left))

/-- The order of objects that lie at most so deep within each other. -/
def isAtMostWithin : Nat → Object → Object → SessionM Bool
  | 0, _, _ => throw .tooDeep
  | depth + 1, left, right => isAtMostBy (isAtMostWithin depth) left right

def isAtMost (left right : Object) : SessionM Bool :=
  isAtMostWithin depthLimit left right

end LexKit.SessionM
