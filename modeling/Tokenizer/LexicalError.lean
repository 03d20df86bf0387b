import Tokenizer.Text.Quoted

/-!
The two ways in which a source can fail to be a sequence of tokens.
-/

namespace Tokenizer

/-- Why scanning stopped before the end of the input. -/
inductive LexicalError where
  /-- The input ended inside a string literal; the line is that of the end. -/
  | unterminatedString (line : UInt32)
  /-- No token begins with this character; the line is the one it stands on. -/
  | unrecognizedCharacter (line : UInt32) (character : Char)
  deriving DecidableEq, Repr

namespace LexicalError

def line : LexicalError → UInt32
  | .unterminatedString line => line
  | .unrecognizedCharacter line _ => line

def message : LexicalError → String
  | .unterminatedString line =>
      "line " ++ Nat.repr line.toNat ++ ": unterminated string literal"
  | .unrecognizedCharacter line character =>
      "line " ++ Nat.repr line.toNat ++ ": unrecognized character " ++
        Text.quoteCharacter character

end LexicalError

end Tokenizer
