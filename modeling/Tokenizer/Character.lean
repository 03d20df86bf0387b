/-!
The characters of the language, by the part they play in a token.

Every class is a set of ASCII characters, so a character outside ASCII belongs
to none of them and can occur only inside a comment or a string literal.
-/

namespace Tokenizer

/-- Opens a comment, which then runs to the end of its line. -/
def commentMarker : Char := '#'

/-- An identifier begins with an ASCII letter. -/
def isIdentifierStart (character : Char) : Bool :=
  character.isAlpha

/-- An identifier goes on with ASCII letters, digits and underscores. -/
def isIdentifierContinue (character : Char) : Bool :=
  character.isAlphanum || character == '_'

/-- The characters that are tokens on their own and never join. -/
def separators : List Char :=
  ['(', ')', ';', '\x7b', '\x7d', '[', ']', ',']

def isSeparator (character : Char) : Bool :=
  separators.contains character

/-- The characters that begin an operator. -/
def operators : List Char :=
  ['!', '&', '%', '+', '-', '*', '/', '\\', '|', '^', '=', '~', ':', '>', '<', '.']

def isOperator (character : Char) : Bool :=
  operators.contains character

/-- The pairs of characters that are read as one operator. -/
def twoCharacterOperators : List (Char × Char) :=
  [('+', '+'), ('-', '-'), ('>', '>'), ('<', '<'), ('=', '='), ('!', '='), ('&', '&')]

def isTwoCharacterOperator (first second : Char) : Bool :=
  twoCharacterOperators.contains (first, second)

/-- A string literal is closed by the character that opened it. -/
def isQuote (character : Char) : Bool :=
  character == '"' || character == '\x27'

/-- The characters that may stand between two tokens. -/
def isWhitespace (character : Char) : Bool :=
  character == ' ' || character == '\t' || character == '\n' || character == '\r'

/-- The characters that end a comment. Only the first of them begins a new
line in the count of lines. -/
def isLineEnd (character : Char) : Bool :=
  character == '\n' || character == '\r'

/-- The classes by name. They overlap: a line end is also white space. -/
inductive CharacterClass where
  | identifierStart
  | identifierContinue
  | separator
  | operator
  | quote
  | whitespace
  | lineEnd
  | commentMarker
  deriving DecidableEq, Repr

namespace CharacterClass

/-- Every class, in the order in which they are listed for a character. -/
def all : List CharacterClass :=
  [.identifierStart, .identifierContinue, .separator, .operator, .quote, .whitespace,
    .lineEnd, .commentMarker]

def contains : CharacterClass → Char → Bool
  | .identifierStart, character => isIdentifierStart character
  | .identifierContinue, character => isIdentifierContinue character
  | .separator, character => isSeparator character
  | .operator, character => isOperator character
  | .quote, character => isQuote character
  | .whitespace, character => isWhitespace character
  | .lineEnd, character => isLineEnd character
  | .commentMarker, character => character == Tokenizer.commentMarker

/-- The classes that hold of a character. -/
def classesOf (character : Char) : List CharacterClass :=
  all.filter fun characterClass => characterClass.contains character

end CharacterClass

end Tokenizer
