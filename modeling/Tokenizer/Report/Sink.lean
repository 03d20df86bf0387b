import Tokenizer.Report

/-!
Writing a report to a place that may have limited room.
-/

namespace Tokenizer

/-- What has been written, and how many bytes still fit if that is limited. -/
structure Sink where
  contents : ByteArray
  room : Option Nat
  /-- What is reported when something does not fit. -/
  cause : SystemError := .noRoom

namespace Sink

def unlimited : Sink :=
  { contents := ByteArray.empty, room := none }

/-- An empty place for so many bytes. -/
def ofRoom (room : Nat) : Sink :=
  { contents := ByteArray.empty, room := some room }

/-- Write a text. Of one that does not fit, as many bytes as fit are kept and
writing fails. -/
def write (text : String) (sink : Sink) : Bool × Sink :=
  let bytes := text.toUTF8
  match sink.room with
  | none => (true, { sink with contents := sink.contents ++ bytes })
  | some room =>
      (decide (bytes.size ≤ room),
        { sink with
          contents := sink.contents ++ bytes.extract 0 room
          room := some (room - bytes.size) })

/-- Write pieces in turn up to the first that fails. -/
def writeAll (sink : Sink) : List Piece → Option Error × Sink
  | [] => (none, sink)
  | piece :: rest =>
      match sink.write piece.text with
      | (true, next) => next.writeAll rest
      | (false, next) => (some (piece.error sink.cause), next)

end Sink

/-- The parts of writing a report. -/
inductive Stage where
  | opening
  | recording
  | closing
  deriving DecidableEq, Repr

/-- What a sink has received, and the first failure if there was one. -/
structure Delivery where
  sink : Sink
  failure : Option (Stage × Error)

namespace Report

/-- Write what stands above the entries. -/
def writeOpening (report : Report) (sink : Sink) : Option Error × Sink :=
  sink.writeAll report.opening

/-- Record an entry and write what it adds. -/
def writeEntry (entry : Entry) (report : Report) (sink : Sink) : Option Error × Report × Sink :=
  let recorded := report.record entry
  let written := sink.writeAll recorded.1
  (written.1, recorded.2, written.2)

/-- Write what stands below the entries. -/
def writeClosing (report : Report) (sink : Sink) : Option Error × Sink :=
  sink.writeAll report.closing

/-- Record entries in turn and close the report, up to the first failure. -/
def deliverEntries (report : Report) (sink : Sink) : List Entry → Delivery
  | [] =>
      let written := report.writeClosing sink
      ⟨written.2, written.1.map fun error => (.closing, error)⟩
  | entry :: rest =>
      match report.writeEntry entry sink with
      | (none, next, sink) => next.deliverEntries sink rest
      | (some error, _, sink) => ⟨sink, some (.recording, error)⟩

/-- Write a report of the given entries, up to the first failure. -/
def deliver (report : Report) (sink : Sink) (entries : List Entry) : Delivery :=
  match report.writeOpening sink with
  | (none, sink) => report.deliverEntries sink entries
  | (some error, sink) => ⟨sink, some (.opening, error)⟩

end Report

end Tokenizer
