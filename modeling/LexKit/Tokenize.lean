import LexKit.Fault
import LexKit.Scan

/-!
# Tokens with stored payloads

A scan gives tokens that carry their text as bytes. A payload store turns these bytes into handles,
in the order of the tokens, and may run out of room. When that happens, or when the scan itself
failed, every handle obtained so far is given back in the order in which it was obtained. A
successful result keeps its handles until it is released.
-/

set_option autoImplicit false

namespace LexKit

/-- What a tokenization gives when it does not run out of room. -/
inductive Outcome (Handle : Type) where
  | success (tokens : List (Token Handle))
  | failure (failure : Failure)
deriving Repr

def Outcome.endsUnterminated {Handle : Type} : Outcome Handle → Bool
  | .success _ => false
  | .failure reported => reported.message == ScanProblem.unterminatedString.message

/-- A place for payloads: it takes bytes for a handle, and a handle back. -/
structure PayloadStore (State Handle : Type) where
  hold : Bytes → State → Except Fault Handle × State
  drop : Handle → State → State

namespace ScanEnding

def failure? : ScanEnding → Option Failure
  | .complete => none
  | .failed offset problem => some ⟨offset, problem.message⟩

end ScanEnding

namespace PayloadStore

variable {State Handle : Type}

/-- Stores the payload of a lexeme. Symbols and numbers have none. -/
def internLexeme (store : PayloadStore State Handle) (lexeme : Lexeme Bytes) (state : State) :
    Except Fault (Lexeme Handle) × State :=
  match lexeme with
  | .symbol kind => (.ok (.symbol kind), state)
  | .number value => (.ok (.number value), state)
  | .identifier name =>
      let (held, after) := store.hold name state
      (held.map .identifier, after)
  | .string text =>
      let (held, after) := store.hold text state
      (held.map .string, after)

/-- Stores the payloads of tokens in order, behind the tokens `done` (the last one first). The
second component is the fault that stopped it, if one did. -/
def intern (store : PayloadStore State Handle) (done : List (Token Handle)) :
    List (Token Bytes) → State → List (Token Handle) × Option Fault × State
  | [], state => (done.reverse, none, state)
  | token :: rest, state =>
      match store.internLexeme token.lexeme state with
      | (.ok lexeme, after) => store.intern (⟨lexeme, token.offset⟩ :: done) rest after
      | (.error fault, after) => (done.reverse, some fault, after)

def release (store : PayloadStore State Handle) (tokens : List (Token Handle)) (state : State) :
    State :=
  (tokens.filterMap Token.payload?).foldl (fun state handle => store.drop handle state) state

/-- Scans a source and stores the payloads of its tokens. -/
def tokenize (store : PayloadStore State Handle) (rules : ScanRules) (source : Bytes)
    (state : State) : Except Fault (Outcome Handle) × State :=
  let scan := Scan.run rules source
  match store.intern [] scan.tokens state with
  | (tokens, some fault, after) => (.error fault, store.release tokens after)
  | (tokens, none, after) =>
      match scan.ending.failure? with
      | none => (.ok (.success tokens), after)
      | some failure => (.ok (.failure failure), store.release tokens after)

end PayloadStore

end LexKit
