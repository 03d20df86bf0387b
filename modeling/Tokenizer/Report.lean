import Tokenizer.Error
import Tokenizer.Json
import Tokenizer.Keyword

/-!
Token reports.

A text report has a heading, then a line for each token as it is recorded. A
JSON report is written as one document at the end. Either may close with the
number of tokens under each label.
-/

namespace Tokenizer

/-- The layouts of a report. -/
inductive Format where
  | text
  | json
  deriving DecidableEq, Repr

/-- The layout of a given name, in upper or lower case. No letter outside ASCII
has a lower-case form that occurs in the names. -/
def Format.ofName? (name : String) : Option Format :=
  let lower := name.map Char.toLower
  if lower == "text" || lower == "txt" then some .text
  else if lower == "json" then some .json
  else none

/-- How often each label was seen, in the order in which they were first seen. -/
abbrev Tally := List (String × Nat)

/-- Count one more of a label. -/
def Tally.add (label : String) : Tally → Tally
  | [] => [(label, 1)]
  | (seen, count) :: rest =>
      if seen == label then (seen, count + 1) :: rest
      else (seen, count) :: Tally.add label rest

/-- A token under the label it is reported with. -/
structure Entry where
  category : Category
  token : Token
  deriving DecidableEq, Repr

namespace Entry

def label (entry : Entry) : String :=
  entry.category.name

/-- An entry as a member of a JSON report. -/
def toJson (entry : Entry) : Json :=
  .object [("kind", .string entry.label), ("line", .natural entry.token.line.toNat),
    ("lexeme", .string entry.token.lexeme)]

end Entry

/-- Tokens with their categories. -/
def KeywordSet.entries (keywords : KeywordSet) (tokens : List Token) : List Entry :=
  tokens.map fun token => ⟨keywords.classify token, token⟩

/-- A piece of a report, written at once. A failure to write it is an error of
the document or of the file, by where it stands. -/
structure Piece where
  text : String
  inDocument : Bool := false
  deriving DecidableEq, Repr

/-- The error of a piece that could not be written. -/
def Piece.error (piece : Piece) (cause : SystemError) : Error :=
  if piece.inDocument then .document cause else .io cause

/-- A report in the making. -/
structure Report where
  format : Format
  /-- The counts so far, if a summary is wanted. -/
  tally : Option Tally
  /-- The entries to be written at the end. -/
  pending : Array Entry

namespace Report

def header : String := "Token --------------------- Lexeme"

def rule : String := "=================================="

/-- Stands between a label and what belongs to it. -/
def fill : String := "---------------------"

/-- A line of a text report. -/
def row (label text : String) : String :=
  "| " ++ label ++ " " ++ fill ++ " " ++ text ++ "\n"

/-- A report with nothing recorded. -/
def new (format : Format) (summary : Bool) : Report :=
  ⟨format, if summary then some [] else none, #[]⟩

/-- What stands above the entries. -/
def opening (report : Report) : List Piece :=
  match report.format with
  | .text => [{ text := header ++ "\n" }, { text := rule ++ "\n" }, { text := rule ++ "\n" }]
  | .json => []

/-- Record an entry: what is written for it now, and the report after it. -/
def record (entry : Entry) (report : Report) : List Piece × Report :=
  let counted := { report with tally := report.tally.map (Tally.add entry.label) }
  match report.format with
  | .text => ([{ text := row entry.label entry.token.lexeme }], counted)
  | .json => ([], { counted with pending := report.pending.push entry })

/-- The counts below a text report. -/
def summaryPieces (tally : Tally) : List Piece :=
  { text := "\n" } :: { text := "Category " ++ fill ++ " Count\n" } :: { text := rule ++ "\n" } ::
    tally.map fun counted => { text := row counted.1 (Nat.repr counted.2) }

/-- A JSON report. -/
def toJson (report : Report) : Json :=
  let summary := report.tally.map fun tally =>
    ("summary", Json.object (tally.map fun counted => (counted.1, .natural counted.2)))
  .object (("tokens", .array (report.pending.toList.map Entry.toJson)) :: summary.toList)

/-- What stands below the entries, or the whole of a JSON report. -/
def closing (report : Report) : List Piece :=
  match report.format with
  | .text => (report.tally.map summaryPieces).getD []
  | .json => [{ text := report.toJson.render, inDocument := true }, { text := "\n" }]

end Report

end Tokenizer
