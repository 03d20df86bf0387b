import Tokenizer.Text.Quoted

/-!
Tokens: a kind, the line on which the token was completed, and the text it was
read from.
-/

namespace Tokenizer

/-- The kinds of token. `finish` ends a complete stream. `dedent` closes an
indented block; the scanner opens none and so never emits it. -/
inductive Kind where
  | identifier
  | integer
  | real
  | string
  | operator
  | separator
  | comment
  | dedent
  | finish
  deriving DecidableEq, Repr

namespace Kind

/-- Every kind. -/
def all : List Kind :=
  [.identifier, .integer, .real, .string, .operator, .separator, .comment, .dedent, .finish]

/-- The name of a kind in reports and messages. -/
def name : Kind → String
  | .identifier => "IDENTIFIER"
  | .integer => "INTEGER"
  | .real => "REAL"
  | .string => "STRING"
  | .operator => "OPERATOR"
  | .separator => "SEPARATOR"
  | .comment => "COMMENT"
  | .dedent => "DEDENT"
  | .finish => "END"

/-- The kind of a given name. -/
def ofName? (text : String) : Option Kind :=
  all.find? fun kind => kind.name == text

end Kind

/-- A token. Lines count from 1 in 32 bits and wrap around. -/
structure Token where
  kind : Kind
  line : UInt32
  lexeme : String
  deriving DecidableEq, Repr

namespace Token

/-- Whether the token ends its stream. -/
def isFinish (token : Token) : Bool :=
  token.kind == .finish

/-- The token on one line of text, with its lexeme quoted. -/
def display (token : Token) : String :=
  Nat.repr token.line.toNat ++ ":" ++ token.kind.name ++ " " ++ Text.quote token.lexeme

end Token

end Tokenizer
