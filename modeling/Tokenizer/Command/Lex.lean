import Tokenizer.Command.Source
import Tokenizer.Config
import Tokenizer.Pipeline
import Tokenizer.Report.Sink

/-!
The command that reports the tokens of a source.
-/

namespace Tokenizer

/-- What is asked for; what is left open is taken from the configuration. -/
structure LexRequest where
  input : String
  output : Option String := none
  /-- Replace what the report file holds. -/
  truncate : Bool := false
  summary : Bool := false
  format : Option String := none
  deriving DecidableEq, Repr

namespace LexRequest

/-- The name of the layout. -/
def formatName (request : LexRequest) (config : Config) : String :=
  request.format.getD config.report.format

/-- The report file, if there is one. -/
def outputPath (request : LexRequest) (config : Config) : Option String :=
  request.output.or config.report.output

/-- Whether the report is added to what the file holds. -/
def appends (request : LexRequest) (config : Config) : Bool :=
  config.report.append && !request.truncate

def wantsSummary (request : LexRequest) (config : Config) : Bool :=
  request.summary || config.report.summary

end LexRequest

/-- The pull that is made for each token: a timed one if there is a limit. -/
def LexerConfig.pull (config : LexerConfig) : Pull :=
  if config.timeout.isSome then .timed else .next

/-- A report being written while tokens arrive. -/
structure Recording where
  report : Report
  sink : Sink
  /-- How many tokens have been recorded. -/
  count : Nat
  /-- How it ended, if it did. -/
  result : Option (Except Error Nat)

namespace Recording

/-- Record the tokens up to the end of the stream or the first error. -/
def consumer (keywords : KeywordSet) (pull : Pull) : Consumer Recording where
  demand recording := if recording.result.isSome then none else some pull
  accept recording item :=
    match item with
    | none => { recording with result := some (.error (.channel .finished)) }
    | some (.error error) => { recording with result := some (.error (.ofChannel error)) }
    | some (.ok token) =>
        match recording.report.writeEntry ⟨keywords.classify token, token⟩ recording.sink with
        | (some error, report, sink) =>
            ⟨report, sink, recording.count, some (.error error)⟩
        | (none, report, sink) =>
            let count := recording.count + 1
            ⟨report, sink, count, if token.isFinish then some (.ok count) else none⟩
  surplus _ := 1

end Recording

/-- What becomes of a report: how many tokens it holds, or why it failed, and
what has been written. -/
structure Reported where
  result : Except Error Nat
  contents : ByteArray

/-- Scan a source and report its tokens as they arrive. The report is closed
also when the scan fails. -/
def reportSource (schedule : List Turn) (keywords : KeywordSet) (pull : Pull) (format : Format)
    (summary : Bool) (source : String) (sink : Sink) : Reported :=
  let report := Report.new format summary
  match report.writeOpening sink with
  | (some error, sink) => ⟨.error error, sink.contents⟩
  | (none, sink) =>
      let final := (Pipeline.ofString source ⟨report, sink, 0, none⟩).complete
        (Recording.consumer keywords pull) schedule
      let recording := final.progress
      let closed := recording.report.writeClosing recording.sink
      let result :=
        match recording.result.getD (.error (.channel .disconnected)), closed.1 with
        | .error error, _ => .error error
        | .ok _, some error => .error error
        | .ok count, none => .ok count
      ⟨result, closed.2.contents⟩

/-- How many bytes of a report are gathered before they go to its file. -/
def bufferSize : Nat := 8192

/-- What comes of a report whose file takes nothing, for the given cause: it
fails when more has been written than can be gathered, or else at the end. -/
def refusedResult (cause : SystemError) (report : Sink → Reported) : Except Error Nat :=
  match (report { Sink.ofRoom bufferSize with cause }).result with
  | .error error => .error error
  | .ok _ => .error (.io cause)

variable {m : Type → Type} [Monad m] [Host m]

/-- Make the report file ready. -/
def openOutput (append : Bool) : Option String → m (Except Error Unit)
  | none => return .ok ()
  | some path => do
      match ← Host.openForWriting path append with
      | .error cause => return .error (.fileOperation path cause)
      | .ok () => return .ok ()

/-- Write a report to its file, or print it. -/
def writeOutput (bytes : ByteArray) : Option String → m (Except SystemError Unit)
  | none => do
      Host.print bytes
      return .ok ()
  | some path => Host.append path bytes

/-- Report the tokens of a source file. Nothing is written before the source
has been read, the layout is known and the report file has been opened. The
result is the number of tokens in the report. -/
def lex (schedule : List Turn) (request : LexRequest) (config : Config) :
    m (Except Error Nat) := do
  match ← readSource request.input with
  | .error error => return .error error
  | .ok source =>
      let name := request.formatName config
      match Format.ofName? name with
      | none => return .error (.unknownFormat name)
      | some format =>
          let path := request.outputPath config
          match ← openOutput (request.appends config) path with
          | .error error => return .error error
          | .ok () =>
              let report := reportSource schedule (KeywordSet.ofList config.lexer.keywords)
                config.lexer.pull format (request.wantsSummary config) source
              let reported := report Sink.unlimited
              match ← writeOutput reported.contents path with
              | .ok () => return reported.result
              | .error cause => return refusedResult cause report

end Tokenizer
