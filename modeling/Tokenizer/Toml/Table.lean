import Tokenizer.Toml.Value

/-!
Tables under construction.

A table may be opened by a header, be implied by the header of a table inside
it, or be made by a dotted key. A header may follow the headers that implied
its table, once; a table made by dotted keys grows only by dotted keys; values,
inline tables among them, never grow.
-/

namespace Tokenizer.Toml

/-- How a table came about. -/
inductive Origin where
  | header
  | implied
  | dotted
  deriving DecidableEq, Repr

/-- What a key stands for while the document is being read. -/
inductive Node where
  | leaf (value : Value)
  | table (origin : Origin) (entries : List (String × Node))
  /-- An array of tables, each with a header of its own: the last one, and
  those before it, the newest first. -/
  | tables (last : List (String × Node)) (earlier : List (List (String × Node)))

/-- The keys of a table with their meanings, the newest first. -/
abbrev Entries := List (String × Node)

namespace Entries

/-- What a key stands for. -/
def find? (key : String) (entries : Entries) : Option Node :=
  List.lookup key entries

/-- Give a key that is there another meaning. -/
def replace (key : String) (node : Node) (entries : Entries) : Entries :=
  entries.map fun entry => if entry.1 == key then (key, node) else entry

/-- Change the table that a path leads to. The tables on the way are made where
they are missing, and the path goes on in the last table of an array. A dotted
path must not lead through a table that has a header. -/
def update (dotted : Bool) (change : Origin → Entries → Except Problem Entries) :
    List String → Origin → Entries → Except Problem Entries
  | [], origin, entries => change origin entries
  | key :: path, _, entries =>
      match entries.find? key with
      | none => do
          let origin := if dotted then Origin.dotted else Origin.implied
          let inner ← update dotted change path origin []
          return (key, .table origin inner) :: entries
      | some (.leaf _) => throw (.notTable key)
      | some (.table origin inner) =>
          if dotted && origin == .header then throw (.duplicate key)
          else do
            let inner ← update dotted change path origin inner
            return entries.replace key (.table origin inner)
      | some (.tables last earlier) => do
          let last ← update dotted change path .header last
          return entries.replace key (.tables last earlier)

/-- Set a key of the table that a dotted path leads to. Neither may have been
defined in another way. -/
def assign (path : List String) (key : String) (value : Value) (origin : Origin)
    (entries : Entries) : Except Problem Entries :=
  update true
    (fun origin entries =>
      if (origin == .dotted) == path.isEmpty then throw (.duplicate key)
      else
        match entries.find? key with
        | some _ => throw (.duplicate key)
        | none => return (key, .leaf value) :: entries)
    path origin entries

/-- Set a key of the table under a header. -/
def assignIn (scope path : List String) (key : String) (value : Value) (entries : Entries) :
    Except Problem Entries :=
  update false (assign path key value) scope .header entries

/-- Open the table of a header. -/
def openTable (path : List String) (key : String) (entries : Entries) :
    Except Problem Entries :=
  update false
    (fun _ entries =>
      match entries.find? key with
      | none => return (key, .table .header []) :: entries
      | some (.table .implied inner) => return entries.replace key (.table .header inner)
      | some _ => throw (.duplicate key))
    path .header entries

/-- Open a further table of an array of tables. -/
def openElement (path : List String) (key : String) (entries : Entries) :
    Except Problem Entries :=
  update false
    (fun _ entries =>
      match entries.find? key with
      | none => return (key, .tables [] []) :: entries
      | some (.tables last earlier) => return entries.replace key (.tables [] (last :: earlier))
      | some _ => throw (.duplicate key))
    path .header entries

end Entries

mutual

/-- What has been built, as a value. Keys and tables stand in the order of the
document. -/
def Node.toValue : Node → Value
  | .leaf value => value
  | .table _ entries => .table (Node.toValues entries).reverse
  | .tables last earlier =>
      .array (Node.toTables earlier (.table (Node.toValues last).reverse :: []))

/-- The entries of a table, the newest first. -/
def Node.toValues : List (String × Node) → List (String × Value)
  | [] => []
  | (key, node) :: rest => (key, node.toValue) :: Node.toValues rest

/-- The tables of an array in front of those that follow them. -/
def Node.toTables : List (List (String × Node)) → List Value → List Value
  | [], following => following
  | entries :: earlier, following =>
      Node.toTables earlier (.table (Node.toValues entries).reverse :: following)

end

/-- The table that has been built. -/
def Entries.toValues (entries : Entries) : List (String × Value) :=
  (Node.toValues entries).reverse

end Tokenizer.Toml
