import Tokenizer.Proofs.File.Writing
import Tokenizer.Proofs.Report.Recording

/-!
What reporting the tokens of a source file does to a machine.
-/

namespace Tokenizer

/-! ### The steps of the command -/

section Steps

variable {world after : World} {α β : Type}

theorem run_readSource {path source : String} (notDevice : world.device? path = none)
    (readable : world.files.read path = .ok source.toUTF8) :
    (readSource path : StateM World _).run world = (.ok source, world) := by
  have isFile : (Host.kind? path : StateM World _).run world = (some .file, world) := by
    rcases FileSystem.read_eq_ok_iff.mp readable with ⟨noSlash, place, located, stands⟩
    have kind : world.kind? path = some .file := by
      simp [World.kind?, FileSystem.lookUp, located, stands, noSlash, notDevice]
    rw [← kind]
    rfl
  rw [readSource, run_bind_eq _ isFile]
  simp only
  rw [run_bind_eq _ (run_readText readable)]
  rfl

theorem run_openOutput {path : String} {append : Bool}
    (opened : world.change (FileSystem.openForWriting path append) = (.ok (), after)) :
    (openOutput append (some path) : StateM World _).run world = (.ok (), after) := by
  have opens : (Host.openForWriting path append : StateM World _).run world = (.ok (), after) :=
    opened
  rw [openOutput, run_bind_eq _ opens]
  rfl

/-- A report file that can be opened and takes everything is written, and without one the report is
printed. -/
theorem exists_written {output : Option String} {keeps : Bool} (bytes : ByteArray)
    (opens : ∀ path, output = some path →
      (FileSystem.openForWriting path keeps world.files).1 = .ok ())
    (takes : ∀ path, output = some path → world.device? path ≠ some .full) :
    ∃ opened after, (openOutput keeps output : StateM World _).run world = (.ok (), opened) ∧
      (writeOutput bytes output : StateM World _).run opened = (.ok (), after) ∧
      (output = none → after = world.print bytes) ∧
      ∀ path, output = some path → World.Wrote path keeps bytes world after := by
  cases output with
  | none => exact ⟨world, world.print bytes, rfl, rfl, fun _ => rfl, nofun⟩
  | some path =>
      rcases World.exists_wrote (opens path rfl) (takes path rfl) bytes with
        ⟨opened, after, opening, appending, wrote⟩
      refine ⟨opened, after, run_openOutput opening, appending, nofun, ?_⟩
      rintro _ ⟨⟩
      exact wrote

theorem run_lex {request : LexRequest} {config : Config} {source : String} {format : Format}
    {opened : World} (schedule : List Turn)
    (reads : (readSource request.input : StateM World _).run world = (.ok source, world))
    (known : Format.ofName? (request.formatName config) = some format)
    (opens : (openOutput (request.appends config) (request.outputPath config) :
      StateM World _).run world = (.ok (), opened))
    (writes : (writeOutput ((Report.new format (request.wantsSummary config)).deliver .unlimited
        ((KeywordSet.ofList config.lexer.keywords).entries
          (Run.ofString source).tokens)).sink.contents
      (request.outputPath config) : StateM World _).run opened = (.ok (), after)) :
    (lex schedule request config : StateM World _).run world =
      ((Run.ofString source).answer, after) := by
  have reported := (reportSource_unlimited schedule (KeywordSet.ofList config.lexer.keywords)
    config.lexer.pull format (request.wantsSummary config) source).2
  rw [lex, run_bind_eq _ reads]
  simp only [known]
  rw [run_bind_eq _ opens]
  simp only [reported]
  rw [run_bind_eq _ writes]
  rfl

end Steps

/-- A source that can be read is reported whole, whatever the schedule. The result is that of its
run, and also the report of a run that fails is complete. The report is printed, or it goes to the
report file only, behind what the file held if that is kept. The report file may be the source.

What a request leaves open is taken from the configuration; a summary is added if either asks for
one, and a report file is kept unless the request is to replace it. -/
theorem lex_reports_run (schedule : List Turn) (request : LexRequest) (config : Config)
    (world : World) (source : String) (format : Format)
    (notDevice : world.device? request.input = none)
    (readable : world.files.read request.input = .ok source.toUTF8)
    (known : Format.ofName? (request.format.getD config.report.format) = some format)
    (opens : ∀ path, request.output.or config.report.output = some path →
      (FileSystem.openForWriting path (config.report.append && !request.truncate) world.files).1 =
        .ok ())
    (takes : ∀ path, request.output.or config.report.output = some path →
      world.device? path ≠ some .full) :
    let run := Run.ofString source
    let keywords := KeywordSet.ofList config.lexer.keywords
    let report := Report.new format (request.summary || config.report.summary)
    let delivery := report.deliver .unlimited
      (run.tokens.map fun token => ⟨keywords.classify token, token⟩)
    let (result, after) := (lex schedule request config : StateM World (Except Error Nat)).run world
    delivery.failure = none ∧
      (run.failure = none → result = .ok run.tokens.length) ∧
      (∀ error, run.failure = some error → result = .error (.lexical error)) ∧
      (request.output = none → config.report.output = none →
        after = { world with output := world.output ++ delivery.sink.contents }) ∧
      ∀ path, request.output.or config.report.output = some path →
        World.Wrote path (config.report.append && !request.truncate) delivery.sink.contents
          world after := by
  intro run keywords report delivery
  have delivered : delivery.failure = none :=
    (reportSource_unlimited schedule keywords config.lexer.pull format _ source).1
  -- The source is read before the report file is opened, so the two may be one.
  have reads := run_readSource notDevice readable
  have succeeds : run.failure = none → run.answer = .ok run.tokens.length := by
    intro success
    rw [Run.answer, success]
  have fails : ∀ error, run.failure = some error → run.answer = .error (.lexical error) := by
    intro error failure
    rw [Run.answer, failure]
  obtain ⟨opened, after, opening, writing, printed, wrote⟩ :=
    exists_written delivery.sink.contents opens takes
  rw [run_lex schedule reads known opening writing]
  refine ⟨delivered, succeeds, fails, ?_, wrote⟩
  intro noOutput noConfigured
  exact printed (by rw [noOutput, noConfigured]; rfl)

/-- A failing run is reported behind its own source, in place of another report as the request has
it, in place of another report as the configuration has it, and on the screen. -/
theorem lex_reports_run_behind_source :
    let files : FileSystem :=
      { entry := fun place =>
          if place = [] then some .directory
          else if place = ["a"] then some (.file "x\n'".toUTF8)
          else if place = ["b"] then some (.file "old".toUTF8) else none
        workingDirectory := [] }
    let lexed (request : LexRequest) (config : Config) : Except Error Nat × World :=
      (lex [.worker, .consumer] request config : StateM World _).run { files }
    let text := "Token --------------------- Lexeme\n==================================\n" ++
      "==================================\n| IDENTIFIER --------------------- x\n"
    let counts := "\nCategory --------------------- Count\n" ++
      "==================================\n| IDENTIFIER --------------------- 1\n"
    let object := "\x7b\n  \"tokens\": [\n    \x7b\n      \"kind\": \"KEYWORD\",\n" ++
      "      \"line\": 1,\n      \"lexeme\": \"x\"\n    \x7d\n  ],\n" ++
      "  \"summary\": \x7b\n    \"KEYWORD\": 1\n  \x7d\n\x7d\n"
    let behind := lexed { input := "a", output := some "a" } {}
    let replaced := lexed
      { input := "a", output := some "b", truncate := true, format := some "text" }
      { report := { output := some "a", format := "json", summary := true } }
    let configured := lexed { input := "a", summary := true }
      { lexer := { keywords := ["x"] }
        report := { output := some "b", append := false, format := "json" } }
    let shown := lexed { input := "a" } {}
    (behind.1 = .error (.lexical (.unterminatedString 2)) ∧
      behind.2.files.read "a" = .ok ("x\n'".toUTF8 ++ text.toUTF8)) ∧
      replaced.2.files.read "b" = .ok (text ++ counts).toUTF8 ∧
      configured.2.files.read "b" = .ok object.toUTF8 ∧
      shown.2 = { files, output := text.toUTF8 } := by
  intro files lexed text counts object behind replaced configured shown
  have located : files.locate "a" = .ok ["a"] := by decide +kernel
  have readable : files.read "a" = .ok "x\n'".toUTF8 :=
    FileSystem.read_eq_ok_iff.mpr ⟨by decide +kernel, ["a"], located, rfl⟩
  have noDevice (path : String) : ({ files } : World).device? path = none := by
    rw [World.device?]
    cases files.locate path <;> rfl
  have opens (path : String) (keeps : Bool) (isFile : path = "a" ∨ path = "b") :
      (FileSystem.openForWriting path keeps files).1 = .ok () := by
    rcases isFile with rfl | rfl <;> cases keeps <;> decide +kernel
  have takes (path : String) : ({ files } : World).device? path ≠ some .full := by
    rw [noDevice]
    exact nofun
  have reports := fun (request : LexRequest) (config : Config) (format : Format)
      (isSource : request.input = "a") =>
    lex_reports_run [.worker, .consumer] request config { files } "x\n'" format (noDevice _)
      (isSource ▸ readable)
  obtain ⟨_, _, failed, _, added⟩ := reports { input := "a", output := some "a" } {} .text rfl
    (by decide +kernel) (by rintro _ ⟨⟩; exact opens _ _ (.inl rfl)) (fun path _ => takes path)
  obtain ⟨_, _, _, _, emptied⟩ := reports
    { input := "a", output := some "b", truncate := true, format := some "text" }
    { report := { output := some "a", format := "json", summary := true } } .text rfl
    (by decide +kernel) (by rintro _ ⟨⟩; exact opens _ _ (.inr rfl)) (fun path _ => takes path)
  obtain ⟨_, _, _, _, rewritten⟩ := reports { input := "a", summary := true }
    { lexer := { keywords := ["x"] }
      report := { output := some "b", append := false, format := "json" } } .json rfl
    (by decide +kernel) (by rintro _ ⟨⟩; exact opens _ _ (.inr rfl)) (fun path _ => takes path)
  obtain ⟨_, _, _, printed, _⟩ := reports { input := "a" } {} .text rfl (by decide +kernel) nofun
    (fun path _ => takes path)
  refine ⟨⟨failed _ (by decide +kernel), ?_⟩, ?_, ?_, ?_⟩
  · refine ((added "a" rfl).file (noDevice _)).trans ?_
    rw [Report.contents_deliver_unlimited, readable]
    refine congrArg (fun written : String => Except.ok (_ ++ written.toUTF8)) ?_
    decide +kernel
  · refine ((emptied "b" rfl).file (noDevice _)).trans ?_
    rw [Report.contents_deliver_unlimited, if_neg (by decide), ByteArray.empty_append]
    refine congrArg (fun written : String => Except.ok written.toUTF8) ?_
    decide +kernel
  · refine ((rewritten "b" rfl).file (noDevice _)).trans ?_
    rw [Report.contents_deliver_unlimited, if_neg (by decide), ByteArray.empty_append]
    refine congrArg (fun written : String => Except.ok written.toUTF8) ?_
    decide +kernel
  · refine (printed rfl rfl).trans (congrArg (fun output => ({ files, output } : World)) ?_)
    refine ByteArray.empty_append.trans ?_
    rw [Report.contents_deliver_unlimited]
    refine congrArg String.toUTF8 ?_
    decide +kernel

end Tokenizer
