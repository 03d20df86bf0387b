import Tokenizer.Proofs.Toml.Grammar

/-!
What a TOML document of settings means.

A document is the list of what it defines, each thing at its place: settings and inline tables,
tables that have a header, and tables that dotted keys make. Nothing may be defined twice. What a
document denotes is a table in which each setting is found at its place, and nothing else but the
tables that lead to a setting or have been opened.
-/

namespace Tokenizer.Toml

/-- What stands in a value at a path of keys. -/
def Value.descend? (value : Value) : List String → Option Value
  | [] => some value
  | key :: path =>
      match value with
      | .table entries => (entries.lookup key).bind fun inner => inner.descend? path
      | _ => none

/-- What a document defines, with the place at which it does. -/
inductive Definition where
  | content (place : List String) (content : Content)
  /-- A table that has a header. -/
  | opened (place : List String)
  /-- A table that a dotted key leads through. -/
  | dotted (place : List String)

namespace Definition

def place : Definition → List String
  | .content place _ | .opened place | .dotted place => place

/-- Whether one thing may be defined after another. A setting or an inline table is never changed,
nor does one come where there is a table. A header opens a table once, and no table that dotted
keys have made. A dotted key does not lead through a table that has a header, or that the header of
a table in it has made. -/
def Compatible : Definition → Definition → Prop
  | .content earlier _, .content later _ => ¬earlier <+: later ∧ ¬later <+: earlier
  | .content earlier _, .opened later | .content earlier _, .dotted later => ¬earlier <+: later
  | .opened earlier, .content later _ | .dotted earlier, .content later _ => ¬later <+: earlier
  | .opened earlier, .opened later | .dotted earlier, .opened later => earlier ≠ later
  | .opened earlier, .dotted later => ¬later <+: earlier
  | .dotted _, .dotted _ => True

/-- The settings that are defined. Those of an inline table stand below its place. -/
def settings : Definition → List (List String × Setting)
  | .content place (.setting value) => [(place, value)]
  | .content place (.inlineTable members) =>
      members.map fun member => (place ++ member.1.full, member.2)
  | .opened _ | .dotted _ => []

/-- The table that is opened, by a header or inline. -/
def table? : Definition → Option (List String)
  | .content place (.inlineTable _) | .opened place => some place
  | .content _ (.setting _) | .dotted _ => none

end Definition

/-- What an assignment in a table defines. -/
def Key.definitions (scope : List String) (key : Key) (content : Content) : List Definition :=
  key.path.inits.tail.map (fun path => .dotted (scope ++ path)) ++
    [.content (scope ++ key.full) content]

/-- What is defined by the members of an inline table, with their places in it. -/
def memberDefinitions (members : List (Key × Setting)) : List Definition :=
  members.flatMap fun member => member.1.definitions [] (.setting member.2)

/-- What is defined by the statements of a document. They stand in the table of the last header
before them. -/
def definitions (scope : List String) : List Clause → List Definition
  | [] => []
  | .assignment key content :: clauses =>
      key.definitions scope content ++ definitions scope clauses
  | .header key :: clauses => .opened key.full :: definitions key.full clauses

/-- Nothing is defined twice, neither in a document nor in an inline table. -/
structure Legal (clauses : List Clause) : Prop where
  document : (definitions [] clauses).Pairwise Definition.Compatible
  inlineTables : ∀ place members, .content place (.inlineTable members) ∈ definitions [] clauses →
    (memberDefinitions members).Pairwise Definition.Compatible

/-- The settings of a document with their places. -/
def settings (clauses : List Clause) : List (List String × Setting) :=
  (definitions [] clauses).flatMap Definition.settings

/-- The places of the tables that a document opens. -/
def tables (clauses : List Clause) : List (List String) :=
  (definitions [] clauses).filterMap Definition.table?

/-- What is found in a table are the settings of a document and the tables that lead to a setting
or have been opened. -/
structure Denotes (clauses : List Clause) (document : List (String × Value)) : Prop where
  found : ∀ place setting, (place, setting) ∈ settings clauses →
    (Value.table document).descend? place = some setting.toValue
  only : ∀ place value, place ≠ [] → (Value.table document).descend? place = some value →
    (∃ setting, (place, setting) ∈ settings clauses ∧ value = setting.toValue) ∨
      ((∃ entries, value = .table entries) ∧
        ∃ further, place <+: further ∧
          ((∃ setting, (further, setting) ∈ settings clauses) ∨ further ∈ tables clauses))

end Tokenizer.Toml
