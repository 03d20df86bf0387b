import Tokenizer.Toml.Text

/-!
TOML documents as they are written: entries one to a line, first those of the
document itself and then those of its tables.
-/

namespace Tokenizer.Toml

/-- What a written entry can hold. -/
inductive Setting where
  | boolean (value : Bool)
  | natural (value : Nat)
  | text (value : String)
  | texts (values : List String)
  deriving DecidableEq, Repr

namespace Setting

/-- A list of two or more strings takes a line for each. -/
def write : Setting → String
  | .boolean value => if value then "true" else "false"
  | .natural value => Nat.repr value
  | .text value => writeText value
  | .texts [] => "[]"
  | .texts [value] => "[" ++ writeText value ++ "]"
  | .texts values =>
      "[\n" ++ String.join (values.map fun value => "    " ++ writeText value ++ ",\n") ++ "]"

/-- The value that is read back. -/
def toValue : Setting → Value
  | .boolean value => .boolean value
  | .natural value => .integer value
  | .text value => .string value
  | .texts values => .array (values.map .string)

end Setting

/-- Entries under their names. -/
abbrev Settings := List (String × Setting)

def Settings.write (settings : Settings) : String :=
  String.join (settings.map fun entry => entry.1 ++ " = " ++ entry.2.write ++ "\n")

/-- A document: its own entries and its tables. -/
structure Layout where
  settings : Settings
  tables : List (String × Settings)

def Layout.write (layout : Layout) : String :=
  layout.settings.write ++
    String.join (layout.tables.map fun table => "\n[" ++ table.1 ++ "]\n" ++ table.2.write)

end Tokenizer.Toml
