import LexKit.Byte

/-!
# Tokens

A token is a lexeme at an offset of the source. Identifiers and strings carry text, numbers carry
their value, and symbols are told apart by their kind alone. The carrier of text is a parameter: a
scan yields bytes, and a workspace stores them in buffers.
-/

set_option autoImplicit false

namespace LexKit

inductive TokenKind where
  | keywordIf
  | keywordWhile
  | identifier
  | numericLiteral
  | stringLiteral
  | less
  | greater
  | lessEqual
  | greaterEqual
  | equal
  | notEqual
  | not
  | and
  | or
  | plus
  | minus
  | multiply
  | divide
  | assign
  | leftParen
  | rightParen
  | comma
  | semicolon
  | leftBracket
  | rightBracket
deriving DecidableEq, Repr

namespace TokenKind

def all : List TokenKind :=
  [.keywordIf, .keywordWhile, .identifier, .numericLiteral, .stringLiteral, .less, .greater,
    .lessEqual, .greaterEqual, .equal, .notEqual, .not, .and, .or, .plus, .minus, .multiply,
    .divide, .assign, .leftParen, .rightParen, .comma, .semicolon, .leftBracket, .rightBracket]

def name : TokenKind → String
  | .keywordIf => "KEYWORD_IF"
  | .keywordWhile => "KEYWORD_WHILE"
  | .identifier => "IDENTIFIER"
  | .numericLiteral => "NUMERIC_LITERAL"
  | .stringLiteral => "STRING_LITERAL"
  | .less => "LESS"
  | .greater => "GREATER"
  | .lessEqual => "LESS_EQUAL"
  | .greaterEqual => "GREATER_EQUAL"
  | .equal => "EQUAL"
  | .notEqual => "NOT_EQUAL"
  | .not => "NOT"
  | .and => "AND"
  | .or => "OR"
  | .plus => "PLUS"
  | .minus => "MINUS"
  | .multiply => "MULTIPLY"
  | .divide => "DIVIDE"
  | .assign => "ASSIGN"
  | .leftParen => "LEFT_PAREN"
  | .rightParen => "RIGHT_PAREN"
  | .comma => "COMMA"
  | .semicolon => "SEMICOLON"
  | .leftBracket => "LEFT_BRACKET"
  | .rightBracket => "RIGHT_BRACKET"

def ofName? (name : String) : Option TokenKind :=
  all.find? (·.name == name)

/-- The kinds whose tokens carry a payload. No symbol may have one of them. -/
def hasPayload : TokenKind → Bool
  | .identifier => true
  | .numericLiteral => true
  | .stringLiteral => true
  | _ => false

end TokenKind

/-- What a token says, with text carried by `Payload`. -/
inductive Lexeme (Payload : Type) where
  | symbol (kind : TokenKind)
  | identifier (name : Payload)
  | number (value : Float)
  | string (text : Payload)
deriving Repr

namespace Lexeme

variable {Payload : Type}

def kind : Lexeme Payload → TokenKind
  | .symbol kind => kind
  | .identifier _ => .identifier
  | .number _ => .numericLiteral
  | .string _ => .stringLiteral

def payload? : Lexeme Payload → Option Payload
  | .symbol _ => none
  | .identifier name => some name
  | .number _ => none
  | .string text => some text

def map {Other : Type} (carry : Payload → Other) : Lexeme Payload → Lexeme Other
  | .symbol kind => .symbol kind
  | .identifier name => .identifier (carry name)
  | .number value => .number value
  | .string text => .string (carry text)

end Lexeme

/-- A lexeme and the offset of its first byte in the source. -/
structure Token (Payload : Type) where
  lexeme : Lexeme Payload
  offset : Nat
deriving Repr

namespace Token

variable {Payload : Type}

def kind (token : Token Payload) : TokenKind :=
  token.lexeme.kind

def payload? (token : Token Payload) : Option Payload :=
  token.lexeme.payload?

def map {Other : Type} (carry : Payload → Other) (token : Token Payload) : Token Other :=
  ⟨token.lexeme.map carry, token.offset⟩

end Token

end LexKit
