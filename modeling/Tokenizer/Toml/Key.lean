import Tokenizer.Toml.Text

/-!
TOML keys: names, bare or quoted, with points between them.
-/

namespace Tokenizer.Toml

def isBareKeyCharacter (character : Char) : Bool :=
  character.isAlphanum || character == '-' || character == '_'

/-- One part of a key. -/
def readName (text : List Char) : Reading String :=
  match text with
  | '"' :: rest => (basicBody rest).map String.ofList
  | '\x27' :: rest => (literalBody rest).map String.ofList
  | _ =>
      let name := text.takeWhile isBareKeyCharacter
      if name.isEmpty then .error (.expected "a key")
      else .ok (String.ofList name, text.dropWhile isBareKeyCharacter)

/-- A key: the tables that it leads through and its last name. -/
structure Key where
  path : List String
  name : String
  deriving DecidableEq, Repr

/-- The whole of a key, as the path of a table. -/
def Key.full (key : Key) : List String :=
  key.path ++ [key.name]

/-- A key of at most so many parts, with the blanks around them. -/
def readKeyWithin : Nat → List Char → Reading Key
  | 0, _ => .error .tooDeep
  | depth + 1, text =>
      match readName (skipBlanks text) with
      | .error problem => .error problem
      | .ok (name, rest) =>
          match skipBlanks rest with
          | '.' :: rest =>
              (readKeyWithin depth rest).map fun key => ⟨name :: key.path, key.name⟩
          | rest => .ok (⟨[], name⟩, rest)

def readKey (text : List Char) : Reading Key :=
  readKeyWithin depthLimit text

end Tokenizer.Toml
