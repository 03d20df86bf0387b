import Tokenizer.Keyword
import Tokenizer.Toml.Layout
import Tokenizer.Toml.Reader

/-!
The configuration, and its form as a TOML document.
-/

namespace Tokenizer

/-- The name of a configuration file. -/
def configurationName : String := "ratt.toml"

/-- How sources are scanned. -/
structure LexerConfig where
  /-- The identifiers that are reported as keywords. -/
  keywords : List String := defaultKeywords
  /-- The longest wait for the next token in milliseconds. -/
  timeout : Option UInt64 := none
  deriving DecidableEq, Repr

/-- The format of reports unless another one is configured. -/
def defaultFormat : String := "text"

/-- How reports are written. -/
structure ReportConfig where
  /-- The report file; without one, reports are printed. -/
  output : Option String := none
  /-- Whether a report is added to what the file holds. -/
  append : Bool := true
  summary : Bool := false
  format : String := defaultFormat
  deriving DecidableEq, Repr

structure Config where
  verbose : Bool := false
  lexer : LexerConfig := {}
  report : ReportConfig := {}
  deriving DecidableEq, Repr

namespace Config

open Toml

/-! ## Reading

A field that is missing from its table has a default of its own, which is given where the table is
read. Only if the whole table is missing, its fields have the defaults of the structure. -/

def readBoolean : Value → Except Problem Bool
  | .boolean value => .ok value
  | _ => .error (.expected "a boolean")

def readString : Value → Except Problem String
  | .string text => .ok text
  | _ => .error (.expected "a string")

def readStrings : Value → Except Problem (List String)
  | .array items => items.mapM readString
  | _ => .error (.expected "an array")

/-- A number of milliseconds is an integer and not negative. -/
def readMilliseconds : Value → Except Problem UInt64
  | .integer (.ofNat value) => .ok (UInt64.ofNat value)
  | _ => .error (.expected "a non-negative integer")

/-- A field of a section, or its default if it is absent. -/
def readField {α : Type} (default : α) (read : Value → Except Problem α) :
    Option Value → Except Problem α
  | none => .ok default
  | some value => read value

/-- Where the fields of a section are found. They stand under their names in a
table, or by position in an array; what is surplus is ignored. A date counts as
a table in which none of them stands. -/
def fields (names : List String) : Value → Except Problem (List (Option Value))
  | .table entries => .ok (names.map fun name => entries.lookup name)
  | .array items => .ok ((List.range names.length).map fun position => items[position]?)
  | .dateTime _ => .ok (names.map fun _ => none)
  | _ => .error (.expected "a table")

/-- The field at a position among those that were looked for. -/
def fieldAt (found : List (Option Value)) (position : Nat) : Option Value :=
  found[position]?.join

def readLexer (value : Value) : Except Problem LexerConfig := do
  let found ← fields ["keywords", "timeout_ms"] value
  let keywords ← readField defaultKeywords readStrings (fieldAt found 0)
  let timeout ← readField none (fun value => (readMilliseconds value).map some) (fieldAt found 1)
  return { keywords, timeout }

def readReport (value : Value) : Except Problem ReportConfig := do
  let found ← fields ["output", "append", "summary", "format"] value
  let output ← readField none (fun value => (readString value).map some) (fieldAt found 0)
  let append ← readField true readBoolean (fieldAt found 1)
  let summary ← readField false readBoolean (fieldAt found 2)
  let format ← readField defaultFormat readString (fieldAt found 3)
  return { output, append, summary, format }

/-- The configuration with the given entries. Entries of other names are
ignored. -/
def ofEntries (entries : List (String × Value)) : Except Problem Config := do
  let verbose ← readField false readBoolean (entries.lookup "verbose")
  let lexer ← readField {} readLexer (entries.lookup "lexer")
  let report ← readField {} readReport (entries.lookup "report")
  return { verbose, lexer, report }

/-- The configuration that a document describes. -/
def parse (text : String) : Except Problem Config := do
  ofEntries (← Toml.read text)

/-! ## Writing -/

/-- A field that is left out if it has no value. -/
def optional {α : Type} (name : String) (write : α → Setting) (value : Option α) : Settings :=
  value.toList.map fun value => (name, write value)

/-- The document that describes a configuration. -/
def toLayout (config : Config) : Layout where
  settings := [("verbose", .boolean config.verbose)]
  tables :=
    [("lexer",
        ("keywords", .texts config.lexer.keywords) ::
          optional "timeout_ms" (fun timeout => .natural timeout.toNat) config.lexer.timeout),
      ("report",
        optional "output" .text config.report.output ++
          [("append", .boolean config.report.append),
            ("summary", .boolean config.report.summary),
            ("format", .text config.report.format)])]

/-- A number can be written if it is a signed integer of 64 bits. -/
def isWritable (config : Config) : Bool :=
  config.lexer.timeout.all fun timeout => timeout.toNat < Nat.pow 2 63

/-- The text of the configuration file. -/
def render (config : Config) : Except Problem String :=
  if config.isWritable then .ok config.toLayout.write
  else .error (.outOfRange "integer")

end Config

end Tokenizer
