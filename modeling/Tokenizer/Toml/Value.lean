/-!
TOML values, and what may be wrong with a TOML document.
-/

namespace Tokenizer.Toml

/-- A value of a TOML document. Numbers with a fraction or an exponent, dates
and times are kept as they are written. -/
inductive Value where
  | string (text : String)
  | integer (value : Int)
  | float (literal : String)
  | boolean (value : Bool)
  | dateTime (literal : String)
  | array (items : List Value)
  | table (entries : List (String × Value))

/-- Why a text is not a TOML document. -/
inductive Problem where
  /-- Something else should stand here. -/
  | expected (what : String)
  /-- A key or a table is defined twice. -/
  | duplicate (key : String)
  /-- A key leads into something that is not a table. -/
  | notTable (key : String)
  /-- A number, a date or an escaped character that does not exist. -/
  | outOfRange (what : String)
  | tooDeep
  deriving DecidableEq, Repr

def Problem.message : Problem → String
  | .expected what => "expected " ++ what
  | .duplicate key => "duplicate key " ++ key
  | .notTable key => "not a table: " ++ key
  | .outOfRange what => what ++ " out of range"
  | .tooDeep => "nested too deeply"

/-- How many arrays, inline tables or parts of a key may be nested. -/
def depthLimit : Nat := 79

/-- What a reader makes of the front of a text, and the rest of the text. -/
abbrev Reading (α : Type) := Except Problem (α × List Char)

/-- What a reading gives, changed. -/
def Reading.map {α β : Type} (change : α → β) (reading : Reading α) : Reading β :=
  match reading with
  | .ok (value, rest) => .ok (change value, rest)
  | .error problem => .error problem

end Tokenizer.Toml
