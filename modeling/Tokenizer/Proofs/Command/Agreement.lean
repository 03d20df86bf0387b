import Tokenizer.Command.Check
import Tokenizer.Proofs.Command.Reporting
import Tokenizer.Proofs.Pipeline.Collection

/-!
Checking a file and reporting its tokens give the same verdict.

One command collects the tokens of a worker, the other records them as they arrive. Both find
what the run over the text of the file finds, or fail on reading it in the same way.
-/

namespace Tokenizer

/-! ### What is found at a path -/

/-- The source at a path, by what the path leads to and what is read there. -/
def sourceOf (path : String) (kind : Option FileKind)
    (contents : Except SystemError ByteArray) : Except Error String :=
  match kind with
  | none => .error (.inputMissing path)
  | some .directory | some .device => .error (.inputNotFile path)
  | some .file => (textOf contents).mapError (.fileOperation path)

/-- What both commands find at a path: the number of tokens, or an error. -/
def verdict (path : String) (kind : Option FileKind)
    (contents : Except SystemError ByteArray) : Except Error Nat :=
  match sourceOf path kind contents with
  | .error error => .error error
  | .ok source => (Run.ofString source).answer

namespace World

/-- The verdict on what stands at a path in a world. -/
def verdict (world : World) (path : String) : Except Error Nat :=
  Tokenizer.verdict path (world.kind? path) (world.files.read path)

end World

section Steps

variable {world : World}

/-- Reading a source changes nothing. -/
theorem run_readSource_eq (world : World) (path : String) :
    (readSource path : StateM World _).run world =
      (sourceOf path (world.kind? path) (world.files.read path), world) := by
  have kind : (Host.kind? path : StateM World _).run world = (world.kind? path, world) := rfl
  rw [readSource, run_bind_eq _ kind]
  cases world.kind? path with
  | none => rfl
  | some found =>
      cases found with
      | directory => rfl
      | device => rfl
      | file =>
          simp only [sourceOf]
          rw [run_bind_eq _ (run_readText_eq world path)]
          cases textOf (world.files.read path) <;> rfl

theorem run_countTokens (schedule : List Turn) (world : World) (path : String) :
    (countTokens schedule path : StateM World _).run world = (world.verdict path, world) := by
  rw [countTokens, run_bind_eq _ (run_readSource_eq world path), World.verdict, verdict]
  cases sourceOf path (world.kind? path) (world.files.read path) with
  | error error => rfl
  | ok source =>
      simp only [tokenizeConcurrently_eq, tokenize, Run.result, Run.answer]
      cases (Run.ofString source).failure <;> rfl

theorem exists_run_lex (schedule : List Turn) (request : LexRequest) {config : Config}
    {format : Format} (known : Format.ofName? (request.formatName config) = some format)
    (opens : ∀ path, request.outputPath config = some path →
      (FileSystem.openForWriting path (request.appends config) world.files).1 = .ok ())
    (takes : ∀ path, request.outputPath config = some path → world.device? path ≠ some .full) :
    ∃ after, (lex schedule request config : StateM World _).run world =
      (world.verdict request.input, after) := by
  have reads := run_readSource_eq world request.input
  rw [World.verdict, verdict]
  cases found : sourceOf request.input (world.kind? request.input)
      (world.files.read request.input) with
  | error error =>
      rw [found] at reads
      refine ⟨world, ?_⟩
      rw [lex, run_bind_eq _ reads]
      rfl
  | ok source =>
      rw [found] at reads
      rcases exists_written _ opens takes with ⟨opened, after, opening, writing, _⟩
      exact ⟨after, run_lex schedule reads known opening writing⟩

end Steps

/-! ### The lines of a check -/

/-- The line for a file that passes. -/
def passedLine? (verbose : Bool) (path : String) (answer : Except Error Nat) : Option String :=
  match answer with
  | .ok tokens => some (passedLine verbose path tokens)
  | .error _ => none

/-- The line for a file that is rejected. -/
def rejectedLine? (path : String) (answer : Except Error Nat) : Option String :=
  match answer with
  | .ok _ => none
  | .error error => some (rejectedLine path error)

/-- How many files pass and how many are rejected. -/
def World.tally (world : World) (inputs : List String) : CheckSummary where
  passed := inputs.countP fun path => (world.verdict path).isOk
  failed := inputs.countP fun path => !(world.verdict path).isOk

/-- No verdict depends on what has been printed, so the files are checked as if each of them
were the first. -/
theorem run_checkAll (schedule : List Turn) (verbose : Bool) (inputs : List String)
    (world : World) :
    (checkAll schedule verbose inputs : StateM World _).run world =
      (world.tally inputs,
        world.withLines (inputs.filterMap fun path => passedLine? verbose path (world.verdict path))
          (inputs.filterMap fun path => rejectedLine? path (world.verdict path))) := by
  induction inputs generalizing world with
  | nil =>
      rw [List.filterMap_nil, List.filterMap_nil, World.withLines_nil]
      rfl
  | cons path inputs inductionHypothesis =>
      rw [checkAll, run_bind_eq _ (run_countTokens schedule world path), World.tally,
        List.countP_cons, List.countP_cons, List.filterMap_cons, List.filterMap_cons]
      cases found : world.verdict path with
      | ok tokens =>
          let line := passedLine verbose path tokens
          have lined : (Host.printLine line : StateM World _).run world =
              ((), world.print (line ++ "\n").toUTF8) := rfl
          simp only
          rw [run_bind_eq _ lined, run_bind_eq _ (inductionHypothesis _),
            World.withLines_print]
          rfl
      | error error =>
          let line := rejectedLine path error
          have lined : (Host.printErrorLine line : StateM World _).run world =
              ((), world.printError (line ++ "\n").toUTF8) := rfl
          simp only
          rw [run_bind_eq _ lined, run_bind_eq _ (inductionHypothesis _),
            World.withLines_printError]
          rfl

theorem World.passed_of_failed_eq_zero {world : World} {inputs : List String}
    (none : (world.tally inputs).failed = 0) :
    world.tally inputs = ⟨inputs.length, 0⟩ := by
  have parts : inputs.length = (world.tally inputs).passed + (world.tally inputs).failed := by
    simpa [tally] using
      List.length_eq_countP_add_countP (fun path => (world.verdict path).isOk) (l := inputs)
  rw [none, Nat.add_zero] at parts
  rw [parts, ← none]

theorem run_check (schedule : List Turn) (verbose : Bool) {inputs : List String}
    (nonempty : inputs ≠ []) (world : World) :
    (check schedule verbose inputs : StateM World _).run world =
      (if (world.tally inputs).failed = 0 then .ok (world.tally inputs)
        else .error (.filesRejected (world.tally inputs).failed inputs.length),
        world.withLines (inputs.filterMap fun path => passedLine? verbose path (world.verdict path))
          (inputs.filterMap fun path => rejectedLine? path (world.verdict path))) := by
  rw [check, if_neg (by simpa using nonempty),
    run_bind_eq _ (run_checkAll schedule verbose inputs world)]
  split <;> rfl

/-- A check passes if and only if reporting every one of its files would succeed, and otherwise
it tells how many would fail. Its line for a file is what reporting that file alone would
answer, and the answer depends on nothing but what stands at the path. Nothing else changes. -/
theorem check_agrees_with_lex (schedule : List Turn) (schedules : String → List Turn)
    (verbose : Bool) (inputs : List String) (request : LexRequest) (config : Config)
    (world : World) (format : Format) (nonempty : inputs ≠ [])
    (known : Format.ofName? (request.format.getD config.report.format) = some format)
    (opens : ∀ path, request.output.or config.report.output = some path →
      (FileSystem.openForWriting path (config.report.append && !request.truncate) world.files).1 =
        .ok ())
    (takes : ∀ path, request.output.or config.report.output = some path →
      world.device? path ≠ some .full) :
    let answer (path : String) : Except Error Nat :=
      ((lex (schedules path) { request with input := path } config : StateM World _).run world).1
    let failed := inputs.countP fun path => !(answer path).isOk
    let checked := (check schedule verbose inputs : StateM World _).run world
    (checked.1 = .ok ⟨inputs.length, 0⟩ ↔ failed = 0) ∧
      (failed ≠ 0 → checked.1 = .error (.filesRejected failed inputs.length)) ∧
      checked.2 = world.withLines
        (inputs.filterMap fun path =>
          match answer path with
          | .ok tokens =>
              some (if verbose then path ++ ": ok (" ++ Nat.repr tokens ++ " tokens)"
                else path ++ ": ok")
          | .error _ => none)
        (inputs.filterMap fun path =>
          match answer path with
          | .ok _ => none
          | .error error => some (path ++ ": " ++ error.message)) ∧
      ∀ path, answer path = verdict path (world.kind? path) (world.files.read path) := by
  intro answer failed checked
  have agrees : answer = world.verdict := by
    funext path
    rcases exists_run_lex (schedules path) { request with input := path } known
      opens takes with ⟨after, ran⟩
    simp only [answer, ran]
  have sameCount : failed = (world.tally inputs).failed := by
    simp only [failed, agrees]
    rfl
  simp only [checked, run_check schedule verbose nonempty world, agrees, sameCount]
  refine ⟨?_, ?_, rfl, fun path => rfl⟩
  · by_cases none : (world.tally inputs).failed = 0
    · simp [World.passed_of_failed_eq_zero none]
    · simp [none]
  · intro some
    rw [if_neg some]

theorem check_agrees_with_lex_on_report_file :
    let files : FileSystem :=
      { entry := fun place =>
          if place = [] then some .directory
          else if place = ["a"] then some (.file "x".toUTF8)
          else if place = ["b"] then some (.file "\n'".toUTF8) else none
        workingDirectory := [] }
    let request : LexRequest := { input := "b", output := some "a" }
    let checked :=
      (check [.worker, .consumer] true ["b", "a", "c", "b"] : StateM World _).run { files }
    ((lex [] request {} : StateM World _).run { files }).1 =
        .error (.lexical (.unterminatedString 2)) ∧
      checked.1 = .error (.filesRejected 3 4) ∧
      checked.2.output = "a: ok (2 tokens)\n".toUTF8 ∧
      checked.2.errors = ("b: line 2: unterminated string literal\n" ++
        "c: Validation error: Input path does not exist: c\n" ++
        "b: line 2: unterminated string literal\n").toUTF8 := by
  intro files request checked
  have opens : (FileSystem.openForWriting "a" true files).1 = .ok () := by decide +kernel
  have takes : ({ files } : World).device? "a" ≠ some .full := by decide +kernel
  obtain ⟨_, rejected, lines, answers⟩ := check_agrees_with_lex [.worker, .consumer]
    (fun _ => []) true ["b", "a", "c", "b"] request {} { files } .text (by simp)
    (by decide +kernel) (by rintro _ ⟨⟩; exact opens) (by rintro _ ⟨⟩; exact takes)
  have reported := answers "b"
  simp only [answers] at rejected lines
  have counted : ["b", "a", "c", "b"].countP (fun path =>
      !(verdict path (({ files } : World).kind? path) (files.read path)).isOk) = 3 := by
    decide +kernel
  rw [counted] at rejected
  refine ⟨reported.trans (by decide +kernel), rejected (by decide), ?_, ?_⟩
  · rw [lines]
    decide +kernel
  · rw [lines]
    decide +kernel

end Tokenizer
