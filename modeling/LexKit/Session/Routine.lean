import LexKit.Session.Operation

/-!
# Routines

What can be asked for without an object: making new objects, and functions of their arguments.
-/

set_option autoImplicit false

namespace LexKit

inductive Routine where
  -- making objects
  | newHeap | newArena | newStorage | newBlock | newBuffer | newText | newCursor | newRules
  | newLexer | newFailure | newSymbol | newIdentifier | newNumber | newString | newTable
  | tableOfPairs | defaultTable
  -- blocks and texts
  | contains | zero | poke | textOfBytes | textOfString | concat | split | splitLines
  -- scanning and its results
  | validate | tokenize | listSource | toError | report | tokens | payload | describe | listing
  -- any objects
  | item | same | differ | copy
  -- numbers and names
  | bytesToMegabytes | bytesToGigabytes | megabytesToBytes | gigabytesToBytes | parseFloat
  | parseInt | formatNumber | fileExtension | positionAt | parseSize | byteClasses
deriving DecidableEq, Repr

namespace SessionM

open Method

def newToken (variant : TokenVariant) : Method :=
  binaryOr (some (Object.nat 0)) fun payload offset => return .token variant payload offset

def newBlock (storage start size : Object) : SessionM Object :=
  addBlock ⟨storage, start, size⟩

/-- A new cursor. Bytes that never change are not copied for it. -/
def newCursor (source : Object) : SessionM Object := do
  let bytes ← sourceOf source
  let mark ←
    match source with
    | .value (.bytes _) mark => pure mark
    | _ => newMark
  addCursor (Reader.ofBytes bytes mark)

def newFailure (offset message : Object) : SessionM Object :=
  return .failure offset message

def blockAt (object : Object) : SessionM PlacedBlock := do
  return (← get).block (← blockOf object)

def report (failure source fileName : Object) : SessionM Object := do
  format (← toError failure source) fileName

def constructor? : Routine → Option Method
  | .newHeap => some (nullary do return .allocator (← onMemory Memory.newHeap))
  | .newArena => some (unary newArena)
  | .newStorage => some (unaryOr (some (Object.bytes [])) newStorage)
  | .newBlock =>
      some (ternaryOr (some Object.none) (some (Object.nat 0)) (some (Object.nat 0)) newBlock)
  | .newBuffer =>
      some (ternaryOr none (some (Object.text Layout.byteLayout.pattern)) (some (Object.nat 0))
        newBuffer)
  | .newText => some (binaryOr (some (Object.nat 0)) newText)
  | .newCursor => some (unary newCursor)
  | .newRules =>
      some (ternaryOr (some (Object.text ScanRules.default.marker)) (some (Object.bool false))
        (some Object.defaultTable) newRules)
  | .newLexer => some (ternaryOr none none (some Object.none) newLexer)
  | .newFailure => some (binaryOr (some (Object.text Failure.defaultMessage)) newFailure)
  | .newSymbol => some (newToken .symbol)
  | .newIdentifier => some (newToken .identifier)
  | .newNumber => some (newToken .number)
  | .newString => some (newToken .string)
  | .newTable => some (unary newTable)
  | .tableOfPairs => some (unary tableOfPairs)
  | .defaultTable => some (nullary (return Object.defaultTable))
  | _ => none

def scanFunction? : Routine → Option Method
  | .contains =>
      some (binary fun big small => do return Object.bool (← containsObject big small))
  | .zero => some (unary fun block => do done (zero (← blockAt block)))
  | .poke =>
      some (ternary fun block index value => do done (poke (← blockAt block) index value))
  | .textOfBytes => some (binary fun data allocator => textOf allocator data)
  | .textOfString => some (binary textOfString)
  | .concat =>
      some (ternaryOr none none (some Object.none) fun parts allocator separator =>
        concat allocator parts separator)
  | .split => some (ternary fun data delimiter allocator => split allocator data delimiter)
  | .splitLines => some (binary fun data allocator => splitLines allocator data)
  | .validate => some (unary fun entries => done (validate entries))
  | .tokenize => some (ternaryOr none (some Object.none) (some Object.none) tokenizeSource)
  | .listSource =>
      some (.action
        [none, some (Object.text ScanRules.default.marker), some (Object.bool false),
          some (Object.nat 0)]
        fun
          | [source, marker, strictStrings, capacity] =>
              listSource source marker strictStrings capacity
          | _ => fail .wrongType)
  | .toError => some (binary toError)
  | .report => some (ternary report)
  | .tokens => some (unary fun result => do addList (← tokensOf result))
  | .payload => some (unary payloadOf)
  | .describe => some (unary describe)
  | .listing =>
      some (unary fun tokens => do return Object.text (← listing (← members tokens)))
  | _ => none

def function? : Routine → Option Method
  | .item => some (binary item)
  | .same => some (binary fun left right => do return Object.bool (← same left right))
  | .differ => some (binary fun left right => do return Object.bool (!(← same left right)))
  | .copy => some (unary copy)
  | .bytesToMegabytes => some (unary bytesToMegabytes)
  | .bytesToGigabytes => some (unary bytesToGigabytes)
  | .megabytesToBytes => some (unary (ofUnit Units.megabyte))
  | .gigabytesToBytes => some (unary (ofUnit Units.gigabyte))
  | .parseFloat => some (unary parseFloat)
  | .parseInt => some (unary parseInt)
  | .formatNumber => some (unary fun value => do return Object.text (← formatNumber value))
  | .fileExtension => some (unary fileExtension)
  | .positionAt => some (binary positionAt)
  | .parseSize => some (unary parseSize)
  | .byteClasses => some (unary byteClasses)
  | _ => none

def run (routine : Routine) (arguments : CallArguments) : SessionM Object :=
  match (constructor? routine).or ((scanFunction? routine).or (function? routine)) with
  | some method => method.apply arguments
  | none => fail .unsupported

end SessionM

end LexKit
