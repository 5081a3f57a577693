import LexKit.Listing
import LexKit.Session.Same

/-!
# Objects as text

What an object looks like on one line in a message: values as literals, texts and buffers with their
content, and records with their parts. Tokens also have a description, which listings show.
-/

set_option autoImplicit false

namespace LexKit

namespace TokenKind

/-- The place of a kind in the list of all kinds, counted from 1. -/
def ordinal (kind : TokenKind) : Nat :=
  all.idxOf kind + 1

def shown (kind : TokenKind) : String :=
  "<TokenType." ++ kind.name ++ ": " ++ toString kind.ordinal ++ ">"

end TokenKind

namespace Text

def shownRecord (name : String) (parts : List (String × String)) : String :=
  name ++ "(" ++ ", ".intercalate (parts.map fun (part, shown) => part ++ "=" ++ shown) ++ ")"

/-- A sequence in parentheses; a single element is followed by a comma. -/
def shownTuple (parts : List String) : String :=
  match parts with
  | [part] => "(" ++ part ++ ",)"
  | parts => "(" ++ ", ".intercalate parts ++ ")"

end Text

namespace SessionM

/-- An integer in decimal digits, unless it has too many. -/
def shownInt (value : Int) : SessionM String :=
  match Number.integerLiteral? value with
  | some text => return text
  | none => throw .tooManyDigits

/-- A buffer with its pattern and its elements, or a text with its bytes. -/
def shownBuffer (id : BufferId) : SessionM String := do
  let session ← get
  if session.isText id then return "Text(" ++ Text.quoteBytes (← content id) ++ ")"
  let values ← valuesOf id
  return "GrowableBuffer(" ++ (session.toValue (session.patternOf id)).shown ++ ", " ++
    Value.shownList values ++ ")"

def shownLeaf (object : Object) : SessionM String := do
  let session ← get
  match object with
  | .value (.int value) _ => shownInt value
  | .value value _ => return value.shown
  | .kind kind => return kind.shown
  | .storage id => return Text.quoteMutableBytes (session.storageBytes id)
  | .buffer id => shownBuffer id
  | .cursor id =>
      let reader := session.reader id
      if !reader.offset.isShowable then throw .tooManyDigits
      return Text.shownRecord "Cursor"
        [("offset", reader.offset.text), ("size", toString reader.bytes.length)]
  | .error _ _ _ _ report => return "LexError(" ++ Text.quote report ++ ")"
  | .position line column offset =>
      return Text.shownRecord "Position"
        [("line", toString line), ("column", toString column), ("offset", offset.text)]
  | .entry entry =>
      return Text.shownRecord "SymbolEntry"
        [("literal", Text.quoteBytes entry.literal), ("type", entry.kind.shown),
          ("word", (Value.bool entry.isWord).shown)]
  | other => return "<" ++ session.typeName other ++ ">"

def shownRecord (shown : Object → SessionM String) (name : String) (parts : List (String × Object)) :
    SessionM String := do
  return Text.shownRecord name (← parts.mapM fun (part, object) => do return (part, ← shown object))

def shownBy (shown : Object → SessionM String) (object : Object) : SessionM String := do
  match object with
  | .block id =>
      let block := (← get).block id
      shownRecord shown "MemoryBlock"
        [("buffer", block.storage), ("start", block.start), ("size", block.size)]
  | .rules marker strictStrings symbols =>
      shownRecord shown "LexerConfig"
        [("comment_marker", marker), ("strict_strings", strictStrings), ("symbols", symbols)]
  | .token variant payload offset =>
      shownRecord shown variant.name [(variant.payloadName, payload), ("offset", offset)]
  | .success tokens => shownRecord shown "LexSuccess" [("tokens", .tuple tokens)]
  | .failure offset message =>
      shownRecord shown "LexFailure" [("offset", offset), ("message", message)]
  | .list id => return "[" ++ ", ".intercalate (← ((← get).list id).mapM shown) ++ "]"
  | .tuple objects => return Text.shownTuple (← objects.mapM shown)
  | object => shownLeaf object

/-- What stands for an object within itself. -/
def elision : Object → String
  | .list _ => "[...]"
  | _ => "..."

/-- An object on one line, if its parts lie at most so deep within each other. The objects around it
are not shown again. -/
def shownWithin : Nat → List Object → Object → SessionM String
  | 0, _, _ => throw .tooDeep
  | depth + 1, around, object =>
      if around.any (·.isIdentical object) then return elision object
      else shownBy (shownWithin depth (object :: around)) object

def shown (object : Object) : SessionM String :=
  shownWithin depthLimit [] object

/-- An object as text: texts are decoded, reports are written out, and other objects are shown. -/
def asText (object : Object) : SessionM String := do
  let session ← get
  match object with
  | .value (.text text) _ => return text
  | .kind kind => return "TokenType." ++ kind.name
  | .error _ _ _ _ report => return report
  | .buffer id =>
      if session.isText id then return String.ofList (Utf8.decodeLossy (← content id))
      else shownBuffer id
  | other => shown other

/-- Bytes that are read as an integer: digits that are not too many, single underscores between
them, a sign in front and blanks around. -/
def isIntegerText (bytes : Bytes) : Bool :=
  let chars := Utf8.decodeAscii (Byte.trim bytes)
  let digits := if chars.head?.any (fun char => char == '+' || char == '-') then chars.drop 1
    else chars
  let groups := (digits.splitOn '_')
  (groups.all fun group => !group.isEmpty && group.all Numeral.isDigit) &&
    groups.flatten.length ≤ Text.digitLimit

/-- Bytes have no literal, not even those that are read as an integer. -/
def formatBytes (bytes : Bytes) : SessionM String :=
  if isIntegerText bytes then fail .wrongType else throw .noNumeral

/-- The literal of a number. A buffer has none, but it is compared with itself first. -/
def formatNumber (object : Object) : SessionM String := do
  match object.quantity?, object with
  | some (.real bits), _ =>
      match Number.literal? (Real.ofBits bits) with
      | some text => return text
      | none => throw (.noLiteral (Real.ofBits bits).identify)
  | some quantity, _ => shownInt (quantity.whole?.getD 0)
  | none, .value (.text _) _ => throw .noNumeral
  | none, .window id =>
      if ((← get).window id).isReleased then fail .wrongType
      formatBytes (← windowBytes id)
  | none, .buffer id =>
      if !(← sameBuffer id id) then throw (.noLiteral (← shownBuffer id))
      fail .wrongType
  | none, object =>
      match ← heldBytes? object with
      | some bytes => formatBytes bytes
      | none => fail .wrongType

def describeNumber (object : Object) : SessionM String := do
  match (← quantityOf object).bits? with
  | none => fail .floatTooLarge
  | some bits =>
      match Real.ofBits bits with
      | .finite .. => formatNumber object
      | number => return number.identify

def nameOf (object : Object) : SessionM Object :=
  match object with
  | .kind kind => return Object.text kind.name
  | .token .identifier payload _ => return payload
  | _ => fail .unsupported

/-- The description of a token; no other object has one. Of a symbol it is the name of its kind,
whatever that is. -/
def describe (object : Object) : SessionM Object := do
  match object with
  | .token .symbol kind _ => nameOf kind
  | .token .number payload _ =>
      return Object.text ("NumericLiteral(" ++ (← describeNumber payload) ++ ")")
  | .token .identifier payload _ =>
      return Object.text ("Identifier(" ++ Text.quote (← asText payload) ++ ")")
  | .token .string payload _ =>
      return Object.text ("StringLiteral(" ++ Text.quote (← asText payload) ++ ")")
  | other => fail (.notToken (← shown other))

def offsetOf (object : Object) : SessionM Object := do
  match object with
  | .token _ _ offset => return offset
  | .failure offset _ => return offset
  | .cursor id => ofQuantity ((← get).reader id).offset
  | .position _ _ offset => ofQuantity offset
  | _ => fail .unsupported

/-- The text of an offset in a listing: numbers and text can be aligned, and nothing else. -/
def offsetText (object : Object) : SessionM String := do
  match object.quantity?, object with
  | some (.real bits), _ => return (Real.ofBits bits).identify
  | some quantity, _ => shownInt (quantity.whole?.getD 0)
  | none, .value (.text text) _ => return text
  | none, .kind _ => asText object
  | none, _ => fail .wrongType

def listing (objects : List Object) : SessionM String := do
  let lines ← objects.mapM fun object => do
    let offset ← offsetText (← offsetOf object)
    return Listing.row offset (← asText (← describe object))
  return String.join lines

end SessionM

end LexKit
