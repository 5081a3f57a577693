import LexKit.Session.Content

/-!
# Equality of objects

Numbers and truth values are equal when they denote one number, bytes when they hold the same. Texts
are compared by their bytes, other buffers by their pattern and elements, and records and lists part
by part, where a part also equals itself. References without content of their own equal only
themselves, and so do released windows.
-/

set_option autoImplicit false

namespace LexKit

namespace Quantity

def isEqual (left right : Quantity) : Bool :=
  left.order? right == some .eq

end Quantity

namespace SessionM

/-- The second check is made only where the first one succeeds. -/
def both (first second : SessionM Bool) : SessionM Bool := do
  if ← first then second else return false

/-- Two texts are equal when their bytes are; other buffers when their patterns and elements are. -/
def sameBuffer (left right : BufferId) : SessionM Bool := do
  let session ← get
  if session.isText left && session.isText right then
    return (← content left) == (← content right)
  if (session.buffer left).layout.pattern ≠ (session.buffer right).layout.pattern then return false
  if session.bytePatterns.contains left ≠ session.bytePatterns.contains right then return false
  let leftValues ← valuesOf left
  return Value.sameList leftValues (← valuesOf right)

/-- A text equals text or bytes with the same content; no other buffer does. -/
def sameContent (id : BufferId) (other : Object) : SessionM Bool := do
  let session ← get
  if !session.isText id then return false
  match other, ← heldBytes? other with
  | _, some bytes => return (← content id) == bytes
  | .value (.text text) _, none => return (← content id) == Utf8.encode text
  | _, none => return false

def samePlain (left right : Object) : SessionM Bool := do
  match left, right, ← shownBytes? left, ← shownBytes? right with
  | _, _, some left, some right => return left == right
  | .value (.text left) _, .value (.text right) _, _, _ => return left == right
  | .window left, .window right, _, _ => return left == right
  | left, right, _, _ => return left.isNone && right.isNone

def sameLeaf (left right : Object) : SessionM Bool := do
  match left, right with
  | .buffer left, .buffer right => sameBuffer left right
  | .buffer id, other => sameContent id other
  | .window window, .buffer id =>
      if ((← get).window window).isReleased then return false else sameContent id left
  | other, .buffer id => sameContent id other
  | .kind left, .kind right => return left == right
  | .entry left, .entry right => return left == right
  | .allocator left, .allocator right => return left == right
  | .cursor left, .cursor right => return left == right
  | .lexer left .., .lexer right .. => return left == right
  | .error left .., .error right .. => return left == right
  | .table left _, .table right _ => return left == right
  | left, right =>
      match left.quantity?, right.quantity? with
      | some left, some right => return left.isEqual right
      | none, none => samePlain left right
      | _, _ => return false

/-- A member equals itself, whatever it is. -/
def sameMember (same : Object → Object → SessionM Bool) (left right : Object) : SessionM Bool :=
  if left.isIdentical right then return true else same left right

/-- All members on both sides are equal, of which there must be equally many. -/
def sameMembers (same : Object → Object → SessionM Bool) : List Object → List Object → SessionM Bool
  | [], [] => return true
  | left :: lefts, right :: rights =>
      both (sameMember same left right) (sameMembers same lefts rights)
  | _, _ => return false

def sameBy (same : Object → Object → SessionM Bool) (left right : Object) : SessionM Bool := do
  let session ← get
  match left, right with
  | .list left, .list right =>
      let leftMembers := session.list left
      let rightMembers := session.list right
      if leftMembers.length ≠ rightMembers.length then return false
      sameMembers same leftMembers rightMembers
  | .tuple left, .tuple right => sameMembers same left right
  | .success left, .success right => sameMembers same left right
  | .token left leftPayload leftOffset, .token right rightPayload rightOffset =>
      if left ≠ right then return false
      sameMembers same [leftPayload, leftOffset] [rightPayload, rightOffset]
  | .failure leftOffset leftMessage, .failure rightOffset rightMessage =>
      sameMembers same [leftOffset, leftMessage] [rightOffset, rightMessage]
  | .rules leftMarker leftStrict leftSymbols, .rules rightMarker rightStrict rightSymbols =>
      sameMembers same [leftMarker, leftStrict, leftSymbols]
        [rightMarker, rightStrict, rightSymbols]
  | .position leftLine leftColumn leftOffset, .position rightLine rightColumn rightOffset =>
      return leftLine == rightLine && leftColumn == rightColumn && leftOffset.isEqual rightOffset
  | .block left, .block right =>
      let left := session.block left
      let right := session.block right
      sameMembers same [left.storage, left.start, left.size]
        [right.storage, right.start, right.size]
  | left, right => sameLeaf left right

/-- Equality of objects that lie at most so deep within each other. -/
def sameWithin : Nat → Object → Object → SessionM Bool
  | 0, _, _ => throw .tooDeep
  | depth + 1, left, right => sameBy (sameWithin depth) left right

def same (left right : Object) : SessionM Bool :=
  sameWithin depthLimit left right

end SessionM

end LexKit
