/-!
JSON documents, as far as reports need them, and their indented layout.
-/

namespace Tokenizer

/-- A JSON value. -/
inductive Json where
  | natural (value : Nat)
  | string (text : String)
  | array (items : List Json)
  | object (members : List (String × Json))

namespace Json

/-- The last two digits of a control character's four, in lower case. -/
def controlDigits (code : Nat) : List Char :=
  [Nat.digitChar (code / 16), Nat.digitChar (code % 16)]

/-- A character inside a JSON string. Only what the grammar forbids to stand
for itself is escaped. -/
def escape (character : Char) : List Char :=
  if character == '"' then ['\\', '"']
  else if character == '\\' then ['\\', '\\']
  else if character == '\x08' then ['\\', 'b']
  else if character == '\x0c' then ['\\', 'f']
  else if character == '\n' then ['\\', 'n']
  else if character == '\r' then ['\\', 'r']
  else if character == '\t' then ['\\', 't']
  else if character.toNat < 0x20 then ['\\', 'u', '0', '0'] ++ controlDigits character.toNat
  else [character]

def quote (text : String) : List Char :=
  '"' :: (text.toList.flatMap escape ++ ['"'])

/-- The start of a line inside containers. -/
def indent (depth : Nat) : List Char :=
  '\n' :: List.replicate (2 * depth) ' '

mutual

/-- The characters of a value over several lines: each item or member of a
container stands on a line of its own, two spaces further in. Empty containers
stay on one line. -/
def characters (depth : Nat) : Json → List Char
  | .natural value => (Nat.repr value).toList
  | .string text => quote text
  | .array [] => ['[', ']']
  | .array (first :: rest) =>
      '[' :: (indent (depth + 1) ++ characters (depth + 1) first ++
        itemCharacters (depth + 1) rest ++ indent depth ++ [']'])
  | .object [] => ['\x7b', '\x7d']
  | .object ((name, first) :: rest) =>
      '\x7b' :: (indent (depth + 1) ++ quote name ++ [':', ' '] ++
        characters (depth + 1) first ++ memberCharacters (depth + 1) rest ++
        indent depth ++ ['\x7d'])

/-- The items after the first. -/
def itemCharacters (depth : Nat) : List Json → List Char
  | [] => []
  | item :: rest =>
      ',' :: (indent depth ++ characters depth item ++ itemCharacters depth rest)

/-- The members after the first. -/
def memberCharacters (depth : Nat) : List (String × Json) → List Char
  | [] => []
  | (name, value) :: rest =>
      ',' :: (indent depth ++ quote name ++ [':', ' '] ++ characters depth value ++
        memberCharacters depth rest)

end

/-- The text of a document. -/
def render (document : Json) : String :=
  String.ofList (document.characters 0)

end Json

end Tokenizer
