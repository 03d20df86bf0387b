import Tokenizer.Toml.DateTime
import Tokenizer.Toml.Key
import Tokenizer.Toml.Number
import Tokenizer.Toml.Table

/-!
Reading TOML values and documents.
-/

namespace Tokenizer.Toml

/-- The items of an array up to its closing bracket, each read by `item`. A
comma may follow the last one, and there may be comments and line ends between
them. -/
def readItems (item : List Char → Reading Value) : Nat → List Char → Reading (List Value)
  | 0, _ => .error (.expected "the end of an array")
  | fuel + 1, text =>
      match skipLines text with
      | ']' :: rest => .ok ([], rest)
      | text =>
          match item text with
          | .error problem => .error problem
          | .ok (first, rest) =>
              match skipLines rest with
              | ',' :: rest => (readItems item fuel rest).map (first :: ·)
              | ']' :: rest => .ok ([first], rest)
              | _ => .error (.expected "a comma or a closing bracket")

/-- A key and a value with an equals sign between them. -/
def readAssignment (item : List Char → Reading Value) (text : List Char) :
    Reading (Key × Value) :=
  match readKey text with
  | .error problem => .error problem
  | .ok (key, '=' :: rest) => (item (skipBlanks rest)).map fun value => (key, value)
  | .ok (_, _) => .error (.expected "an equals sign")

/-- The members of an inline table from the first one to its closing brace. -/
def readMembers (item : List Char → Reading Value) :
    Nat → List Char → Reading (List (Key × Value))
  | 0, _ => .error (.expected "the end of an inline table")
  | fuel + 1, text =>
      match readAssignment item text with
      | .error problem => .error problem
      | .ok (first, rest) =>
          match skipBlanks rest with
          | ',' :: rest => (readMembers item fuel rest).map (first :: ·)
          | '\x7d' :: rest => .ok ([first], rest)
          | _ => .error (.expected "a comma or a closing brace")

/-- The table with the given members. -/
def tableOfMembers (members : List (Key × Value)) : Except Problem Value := do
  let entries ← members.foldlM
    (fun (entries : Entries) (member : Key × Value) =>
      entries.assign member.1.path member.1.name member.2 .header)
    []
  return .table entries.toValues

/-- An inline table after its opening brace. -/
def readInlineTable (item : List Char → Reading Value) (text : List Char) : Reading Value :=
  match skipBlanks text with
  | '\x7d' :: rest => .ok (.table [], rest)
  | _ =>
      match readMembers item (text.length + 1) text with
      | .error problem => .error problem
      | .ok (members, rest) =>
          match tableOfMembers members with
          | .error problem => .error problem
          | .ok table => .ok (table, rest)

/-- A date, a time or a number. -/
def readDigits (text : List Char) : Reading Value :=
  match dateTime? text with
  | some rest =>
      .ok (.dateTime (String.ofList (text.take (text.length - rest.length))), rest)
  | none => readNumber text

/-- A value in which at most so many arrays and inline tables are nested. -/
def readValueWithin : Nat → List Char → Reading Value
  | depth, text =>
      match text with
      | '[' :: rest =>
          match depth with
          | 0 => .error .tooDeep
          | depth + 1 => (readItems (readValueWithin depth) (rest.length + 1) rest).map .array
      | '\x7b' :: rest =>
          match depth with
          | 0 => .error .tooDeep
          | depth + 1 => readInlineTable (readValueWithin depth) rest
      | '"' :: _ => (readText text).map .string
      | '\x27' :: _ => (readText text).map .string
      | 't' :: 'r' :: 'u' :: 'e' :: rest => .ok (.boolean true, rest)
      | 'f' :: 'a' :: 'l' :: 's' :: 'e' :: rest => .ok (.boolean false, rest)
      | _ => readDigits text

def readValue (text : List Char) : Reading Value :=
  readValueWithin depthLimit text

/-- A statement of a document. -/
inductive Statement where
  | assignment (key : Key) (value : Value)
  | table (key : Key)
  | element (key : Key)

/-- The rest of a text after the brackets that close a header. -/
def closeHeader (element : Bool) : List Char → Option (List Char)
  | ']' :: ']' :: rest => if element then some rest else none
  | ']' :: rest => if element then none else some rest
  | _ => none

/-- A header after its opening brackets. -/
def readHeader (element : Bool) (text : List Char) : Reading Statement :=
  match readKey text with
  | .error problem => .error problem
  | .ok (key, rest) =>
      match closeHeader element rest with
      | none => .error (.expected "a closing bracket")
      | some rest =>
          (endOfLine rest).map fun _ => if element then .element key else .table key

/-- A statement with the rest of its line. -/
def readStatement (text : List Char) : Reading Statement :=
  match text with
  | '[' :: '[' :: rest => readHeader true rest
  | '[' :: rest => readHeader false rest
  | _ =>
      match readAssignment readValue text with
      | .error problem => .error problem
      | .ok ((key, value), rest) => (endOfLine rest).map fun _ => .assignment key value

/-- The statements of a document, with comments and blank lines between them. -/
def readStatements : Nat → List Char → Except Problem (List Statement)
  | 0, _ => .error (.expected "the end of the document")
  | fuel + 1, text =>
      match skipLines text with
      | [] => .ok []
      | text =>
          match readStatement text with
          | .error problem => .error problem
          | .ok (statement, rest) => (readStatements fuel rest).map (statement :: ·)

/-- The part of a document that has been built, and the header it stands under. -/
structure Building where
  scope : List String
  entries : Entries

def Building.add (building : Building) : Statement → Except Problem Building
  | .assignment key value => do
      let entries ← building.entries.assignIn building.scope key.path key.name value
      return { building with entries := entries }
  | .table key => return ⟨key.full, ← building.entries.openTable key.path key.name⟩
  | .element key => return ⟨key.full, ← building.entries.openElement key.path key.name⟩

/-- The entries of a document. A byte order mark may stand before it. -/
def read (text : String) : Except Problem (List (String × Value)) := do
  let characters := match text.toList with
    | '\ufeff' :: rest => rest
    | characters => characters
  let statements ← readStatements (characters.length + 1) characters
  let building ← statements.foldlM Building.add ⟨[], []⟩
  return building.entries.toValues

end Tokenizer.Toml
