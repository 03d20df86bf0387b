import Tokenizer.Report.Sink

/-!
What a report writes where there is room for all of it.

The pieces of a report are the same wherever they are written. So a report is one list of pieces,
and a place without a limit receives them one behind the other.
-/

namespace Tokenizer

/-- The text of pieces that are written one behind the other. -/
def Piece.joined : List Piece → String
  | [] => ""
  | piece :: rest => piece.text ++ joined rest

theorem Piece.joined_append (pieces others : List Piece) :
    joined (pieces ++ others) = joined pieces ++ joined others := by
  induction pieces with
  | nil => rw [List.nil_append, joined, String.empty_append]
  | cons piece pieces inductionHypothesis =>
      rw [List.cons_append, joined, inductionHypothesis, joined, String.append_assoc]

namespace Sink

variable {sink : Sink}

def receive (sink : Sink) (text : String) : Sink :=
  { sink with contents := sink.contents ++ text.toUTF8 }

theorem receive_append (sink : Sink) (first second : String) :
    sink.receive (first ++ second) = (sink.receive first).receive second := by
  simp only [receive, String.toUTF8_eq_toByteArray, String.toByteArray_append,
    ByteArray.append_assoc]

theorem contents_receive_unlimited (text : String) :
    (unlimited.receive text).contents = text.toUTF8 :=
  ByteArray.empty_append

theorem writeAll_of_unlimited (unlimited : sink.room = none) (pieces : List Piece) :
    sink.writeAll pieces = (none, sink.receive (Piece.joined pieces)) := by
  induction pieces generalizing sink with
  | nil =>
      have nothing : sink.contents ++ "".toUTF8 = sink.contents := ByteArray.append_empty
      rw [writeAll, Piece.joined, receive, nothing]
  | cons piece pieces inductionHypothesis =>
      have written : sink.write piece.text = (true, sink.receive piece.text) := by
        simp only [write, unlimited, receive]
      have unlimitedStill : (sink.receive piece.text).room = none := unlimited
      simp only [writeAll, written, Piece.joined, receive_append]
      exact inductionHypothesis unlimitedStill

end Sink

namespace Tally

def addAll (tally : Tally) (entries : List Entry) : Tally :=
  entries.foldl (fun tally entry => add entry.label tally) tally

def ofEntries (entries : List Entry) : Tally :=
  addAll [] entries

end Tally

namespace Report

variable {sink : Sink}

/-- Record entries in turn: what is written for them, and the report after them. -/
def recordAll (report : Report) : List Entry → List Piece × Report
  | [] => ([], report)
  | entry :: rest =>
      let recorded := report.record entry
      let others := recorded.2.recordAll rest
      (recorded.1 ++ others.1, others.2)

/-- A report of some entries, in the pieces in which it is written. -/
def pieces (report : Report) (entries : List Entry) : List Piece :=
  let recorded := report.recordAll entries
  report.opening ++ (recorded.1 ++ recorded.2.closing)

theorem deliverEntries_of_unlimited (unlimited : sink.room = none) (report : Report)
    (entries : List Entry) :
    let recorded := report.recordAll entries
    report.deliverEntries sink entries =
      ⟨sink.receive (Piece.joined (recorded.1 ++ recorded.2.closing)), none⟩ := by
  induction entries generalizing report sink with
  | nil =>
      rw [deliverEntries, writeClosing, Sink.writeAll_of_unlimited unlimited]
      rfl
  | cons entry entries inductionHypothesis =>
      -- What the entry adds goes in front of what the others add.
      have entered : report.writeEntry entry sink = (none, (report.record entry).2,
          sink.receive (Piece.joined (report.record entry).1)) := by
        rw [writeEntry, Sink.writeAll_of_unlimited unlimited]
      have unlimitedStill :
          (sink.receive (Piece.joined (report.record entry).1)).room = none := unlimited
      simp only [deliverEntries, entered, recordAll, List.append_assoc]
      rw [inductionHypothesis unlimitedStill, ← Sink.receive_append, ← Piece.joined_append]

/-- Where there is no limit a report is written without a failure, and what is there afterwards
are its pieces. -/
theorem deliver_unlimited (report : Report) (entries : List Entry) :
    report.deliver .unlimited entries =
      ⟨Sink.unlimited.receive (Piece.joined (report.pieces entries)), none⟩ := by
  have unlimited : Sink.unlimited.room = none := rfl
  have unlimitedStill :
      (Sink.unlimited.receive (Piece.joined report.opening)).room = none := unlimited
  simp only [deliver, writeOpening, Sink.writeAll_of_unlimited unlimited]
  rw [deliverEntries_of_unlimited unlimitedStill, ← Sink.receive_append, ← Piece.joined_append,
    pieces]

theorem contents_deliver_unlimited (report : Report) (entries : List Entry) :
    (report.deliver .unlimited entries).sink.contents =
      (Piece.joined (report.pieces entries)).toUTF8 := by
  rw [deliver_unlimited, Sink.contents_receive_unlimited]

/-! ### The two layouts -/

/-- The counts of some entries, if a summary is wanted. -/
def counts? (summary : Bool) (entries : List Entry) : Option Tally :=
  if summary then some (.ofEntries entries) else none

theorem recordAll_text (tally : Option Tally) (pending : Array Entry) (entries : List Entry) :
    recordAll ⟨.text, tally, pending⟩ entries =
      (entries.map fun entry => { text := row entry.label entry.token.lexeme },
        ⟨.text, tally.map fun tally => tally.addAll entries, pending⟩) := by
  induction entries generalizing tally with
  | nil => cases tally <;> rfl
  | cons entry entries inductionHypothesis =>
      simp only [recordAll, record, inductionHypothesis, Option.map_map]
      rfl

/-- A document is written at the end, so that recording an entry writes nothing. -/
theorem recordAll_json (tally : Option Tally) (pending : Array Entry) (entries : List Entry) :
    recordAll ⟨.json, tally, pending⟩ entries =
      ([], ⟨.json, tally.map fun tally => tally.addAll entries, pending ++ entries.toArray⟩) := by
  induction entries generalizing tally pending with
  | nil => cases tally <;> simp [recordAll, Tally.addAll]
  | cons entry entries inductionHypothesis =>
      simp only [recordAll, record, inductionHypothesis, Option.map_map]
      simp [Tally.addAll, Function.comp_def]

theorem map_addAll_new (summary : Bool) (entries : List Entry) :
    ((if summary then some [] else none : Option Tally).map fun tally => tally.addAll entries) =
      counts? summary entries := by
  cases summary <;> rfl

/-- A text report of some entries: the heading, a row for each of them, and the summary. -/
theorem pieces_new_text (summary : Bool) (entries : List Entry) :
    (new .text summary).pieces entries =
      (new .text summary).opening ++
        ((entries.map fun entry => { text := row entry.label entry.token.lexeme }) ++
          ((counts? summary entries).map summaryPieces).getD []) := by
  have recorded := recordAll_text (if summary then some [] else none) #[] entries
  rw [map_addAll_new] at recorded
  rw [new, pieces, recorded]
  rfl

/-- A JSON report of some entries: a document and a line feed. -/
theorem pieces_new_json (summary : Bool) (entries : List Entry) :
    (new .json summary).pieces entries =
      [{ text := (Report.mk .json (counts? summary entries) entries.toArray).toJson.render
         inDocument := true },
        { text := "\n" }] := by
  have recorded := recordAll_json (if summary then some [] else none) #[] entries
  rw [map_addAll_new, Array.empty_append] at recorded
  rw [new, pieces, recorded]
  rfl

end Report

end Tokenizer
