import Tokenizer.Proofs.Command.Agreement

/-!
Requests for a report that are turned down.

Whatever can be wrong with a request is found before anything is written: reading the source
changes nothing, and opening a report file is the first step that could. So a request that is
turned down leaves the machine as it was.
-/

namespace Tokenizer

namespace World

variable {world : World} {path : String}

theorem exists_read_of_kind?_eq_file (isFile : world.kind? path = some .file) :
    ∃ bytes, world.files.read path = .ok bytes := by
  rw [kind?] at isFile
  rw [FileSystem.read]
  cases found : world.files.lookUp path with
  | error error => simp [found] at isFile
  | ok entry =>
      cases entry with
      | directory => simp [found] at isFile
      | file contents => exact ⟨contents, rfl⟩

end World

section Steps

variable {world : World}

theorem run_openOutput_of_error {path : String} {keeps : Bool} {cause : SystemError}
    (refused : (FileSystem.openForWriting path keeps world.files).1 = .error cause) :
    (openOutput keeps (some path) : StateM World _).run world =
      (.error (.fileOperation path cause), world) := by
  have opens : (Host.openForWriting path keeps : StateM World _).run world =
      (.error cause, world) := World.change_openForWriting_of_error refused
  rw [openOutput, run_bind_eq _ opens]
  rfl

variable {request : LexRequest} {config : Config}

theorem run_lex_of_source_error (schedule : List Turn) {error : Error}
    (unread : sourceOf request.input (world.kind? request.input)
      (world.files.read request.input) = .error error) :
    (lex schedule request config : StateM World _).run world = (.error error, world) := by
  have reads := run_readSource_eq world request.input
  rw [unread] at reads
  rw [lex, run_bind_eq _ reads]
  rfl

theorem run_lex_of_unknown_format (schedule : List Turn) {source : String}
    (read : sourceOf request.input (world.kind? request.input)
      (world.files.read request.input) = .ok source)
    (unknown : Format.ofName? (request.formatName config) = none) :
    (lex schedule request config : StateM World _).run world =
      (.error (.unknownFormat (request.formatName config)), world) := by
  have reads := run_readSource_eq world request.input
  rw [read] at reads
  rw [lex, run_bind_eq _ reads]
  simp only [unknown]
  rfl

theorem run_lex_of_unopened (schedule : List Turn) {source path : String} {format : Format}
    {cause : SystemError}
    (read : sourceOf request.input (world.kind? request.input)
      (world.files.read request.input) = .ok source)
    (known : Format.ofName? (request.formatName config) = some format)
    (goes : request.outputPath config = some path)
    (refused : (FileSystem.openForWriting path (request.appends config) world.files).1 =
      .error cause) :
    (lex schedule request config : StateM World _).run world =
      (.error (.fileOperation path cause), world) := by
  have reads := run_readSource_eq world request.input
  rw [read] at reads
  have opens := run_openOutput_of_error refused
  rw [← goes] at opens
  rw [lex, run_bind_eq _ reads]
  simp only [known]
  rw [run_bind_eq _ opens]
  rfl

end Steps

/-- A request for a report is turned down if there is no file for its source or that is no text,
else if its layout is unknown, else if its report file cannot be opened. The error tells the first
of these reasons, and the machine is as it was: no file has been made, emptied or added to, and
nothing has been printed. -/
theorem rejected_lex_leaves_no_trace (schedule : List Turn) (request : LexRequest)
    (config : Config) (world : World) :
    let input := request.input
    let name := request.format.getD config.report.format
    let rejected (error : Error) (family : ErrorFamily) : Prop :=
      (lex schedule request config : StateM World _).run world = (.error error, world) ∧
        error.family = family
    (world.kind? input = none → rejected (.inputMissing input) .validation) ∧
      (∀ kind, world.kind? input = some kind → kind ≠ .file →
        rejected (.inputNotFile input) .validation) ∧
      (world.kind? input = some .file → ∃ bytes, world.files.read input = .ok bytes ∧
        (String.fromUTF8? bytes = none →
          rejected (.fileOperation input .invalidText) .fileOperation) ∧
        ∀ source, String.fromUTF8? bytes = some source →
          (Format.ofName? name = none → rejected (.unknownFormat name) .validation) ∧
          ∀ format path cause, Format.ofName? name = some format →
            request.output.or config.report.output = some path →
            (FileSystem.openForWriting path (config.report.append && !request.truncate)
              world.files).1 = .error cause →
            rejected (.fileOperation path cause) .fileOperation) := by
  intro input name rejected
  refine ⟨?_, ?_, ?_⟩
  · intro missing
    refine ⟨run_lex_of_source_error schedule ?_, rfl⟩
    simp only [sourceOf, missing, input]
  · intro kind leads notFile
    refine ⟨run_lex_of_source_error schedule ?_, rfl⟩
    cases kind with
    | file => exact absurd rfl notFile
    | directory => simp only [sourceOf, leads, input]
    | device => simp only [sourceOf, leads, input]
  · intro isFile
    obtain ⟨bytes, readable⟩ := World.exists_read_of_kind?_eq_file isFile
    refine ⟨bytes, readable, ?_, ?_⟩
    · intro notText
      refine ⟨run_lex_of_source_error schedule ?_, rfl⟩
      simp only [sourceOf, isFile, readable, textOf, notText, Except.mapError, input]
    · intro source isText
      have read : sourceOf input (world.kind? input) (world.files.read input) = .ok source := by
        simp only [sourceOf, isFile, readable, textOf, isText, Except.mapError]
      refine ⟨fun unknown => ⟨run_lex_of_unknown_format schedule read unknown, rfl⟩, ?_⟩
      intro format path cause known goes refused
      exact ⟨run_lex_of_unopened schedule read known goes refused, rfl⟩

end Tokenizer
