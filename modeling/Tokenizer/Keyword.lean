import Tokenizer.Token

/-!
Keywords. The scanner reads a keyword as an identifier; whether an identifier
is reported as a keyword is decided afterwards, by a set of words.
-/

namespace Tokenizer

/-- How a token is labelled: as a keyword, or by its kind. -/
inductive Category where
  | keyword
  | plain (kind : Kind)
  deriving DecidableEq, Repr

/-- The label of a category in reports. -/
def Category.name : Category → String
  | .keyword => "KEYWORD"
  | .plain kind => kind.name

/-- The words that are keywords unless others are configured. -/
def defaultKeywords : List String :=
  ["import", "integer", "if", "else", "endif", "while", "for", "print", "cmath", "or", "in",
    "True", "False", "with", "except", "break", "def", "try", "return", "get", "put", "raise",
    "class", "super", "from", "self"]

/-- A set of words, each of them kept once. -/
structure KeywordSet where
  words : List String
  deriving Repr

namespace KeywordSet

/-- The set of the given words, which may repeat. -/
def ofList (words : List String) : KeywordSet :=
  ⟨words.eraseDups⟩

def default : KeywordSet :=
  ofList defaultKeywords

def size (keywords : KeywordSet) : Nat :=
  keywords.words.length

def isEmpty (keywords : KeywordSet) : Bool :=
  keywords.words.isEmpty

def contains (keywords : KeywordSet) (word : String) : Bool :=
  keywords.words.contains word

/-- Whether two sets have the same words, in whatever order they were given. -/
def sameWords (left right : KeywordSet) : Bool :=
  left.words.all right.contains && right.words.all left.contains

/-- The category of a token: only an identifier can be a keyword. -/
def classify (keywords : KeywordSet) (token : Token) : Category :=
  if token.kind == .identifier && keywords.contains token.lexeme then .keyword
  else .plain token.kind

end KeywordSet

end Tokenizer
