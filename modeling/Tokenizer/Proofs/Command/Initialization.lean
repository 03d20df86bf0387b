import Tokenizer.Command.Init
import Tokenizer.Proofs.Config.Saving
import Tokenizer.Proofs.File.Ways

/-!
Creating a configuration file.

Whether the file is there is asked before any directory is made. Behind a directory that is
missing a step back leads nowhere, so the answer is no. Once the directory has been made the same
path may lead to a file. On every other path no file is replaced unless this is asked for.
-/

namespace Tokenizer

theorem Path.isName_configurationName : Path.IsName configurationName where
  steps := by decide
  relative := by decide
  noSlash := by decide

/-- The path of the file that is asked for. -/
def InitRequest.path (request : InitRequest) : String :=
  Path.join request.target configurationName

theorem InitRequest.endsInSlash_path (request : InitRequest) :
    Path.endsInSlash request.path = false :=
  Path.isName_configurationName.endsInSlash_join request.target

/-! ### What stands at the path -/

section Before

variable {world ready : World} {path : String} {place : Place} {request : InitRequest}

theorem World.entry_of_kind?_eq_none (missing : world.kind? path = none)
    (noSlash : Path.endsInSlash path = false) (located : world.files.locate path = .ok place) :
    world.files.entry place = none := by
  cases stands : world.files.entry place with
  | none => rfl
  | some entry =>
      cases entry <;> simp [kind?, FileSystem.lookUp, located, stands, noSlash] at missing

/-- The way to a name in a directory passes the directory. -/
theorem InitRequest.kind?_target (located : world.files.locate request.path = .ok place) :
    world.kind? request.target = none ∨ world.kind? request.target = some .directory := by
  rcases (FileSystem.locate_join_iff Path.isName_configurationName).mp located with
    ⟨_, above, followed, isDirectory, _⟩
  cases problem : Path.problem? request.target with
  | some refusal =>
      left
      simp only [World.kind?, FileSystem.lookUp, FileSystem.locate, FileSystem.walk, problem]
  | none =>
      right
      have reached := FileSystem.locate_eq_ok_iff.mpr ⟨problem, followed⟩
      simp only [World.kind?, FileSystem.lookUp, reached, isDirectory]

/-- A directory that can be found does not hide what it holds. -/
theorem InitRequest.locate_path (isDirectory : world.kind? request.target = some .directory)
    (allowed : Path.problem? request.path = none) :
    ∃ place, world.files.locate request.path = .ok place := by
  obtain ⟨above, located, stands⟩ := exists_of_kind?_eq_directory isDirectory
  have followed := (FileSystem.locate_eq_ok_iff.mp located).2
  have short : configurationName.utf8ByteSize ≤ Path.nameLimit := by decide
  exact ⟨_, (FileSystem.locate_join_iff Path.isName_configurationName).mpr
    ⟨allowed, above, followed, stands, short, rfl⟩⟩

/-- Where no file was found before directories were made there is none, unless the path steps
back behind a directory that was missing. -/
theorem World.Made.entry_eq_none {paths : List String} (made : Made paths world ready)
    (proper : world.files.Proper) (missing : world.kind? request.path = none)
    (free : world.kind? request.target = none ∨ world.kind? request.target = some .directory)
    (located : ready.files.locate request.path = .ok place) :
    world.files.entry place = none ∨
      world.kind? request.target = none ∧ ".." ∈ Path.steps request.target := by
  cases before : world.files.locate request.path with
  | ok there =>
      left
      have same := (made.grown.files.locate before).symm.trans located
      cases same
      exact entry_of_kind?_eq_none missing request.endsInSlash_path before
  | error error =>
      have unseen : world.kind? request.target = none := by
        rcases free with unseen | isDirectory
        · exact unseen
        · have allowed := (FileSystem.locate_eq_ok_iff.mp located).1
          obtain ⟨there, found⟩ := InitRequest.locate_path isDirectory allowed
          cases before.symm.trans found
      by_cases back : ".." ∈ Path.steps request.target
      · exact .inr ⟨unseen, back⟩
      · have onward : ".." ∉ Path.steps request.path := by
          rw [InitRequest.path, Path.steps_join, Path.isName_configurationName.steps,
            List.mem_append, not_or]
          exact ⟨back, by decide⟩
        exact .inl (made.grown.files.entry_eq_none_of_lost proper onward located before)

end Before

/-! ### The run of the command -/

section Steps

variable {world : World} {text : String} {request : InitRequest}

/-- Whether something that is no directory stands where the directory of the file should be. -/
def InitRequest.isBlocked (request : InitRequest) (world : World) : Bool :=
  (world.kind? request.target).any fun kind => kind != .directory

theorem InitRequest.isBlocked_eq_false_iff : request.isBlocked world = false ↔
    world.kind? request.target = none ∨ world.kind? request.target = some .directory := by
  rw [isBlocked]
  cases world.kind? request.target with
  | none => simp
  | some kind => cases kind <;> simp

theorem run_createConfiguration (verbose : Bool) (request : InitRequest) (world : World) :
    (createConfiguration verbose request : StateM World _).run world =
      if request.isBlocked world then (.error (.targetNotDirectory request.target), world)
      else if (world.kind? request.path).isSome && !request.force then
        (.error (.configurationExists request.path), world)
      else
        match (Config.save {} request.path : StateM World _).run world with
        | (.error error, after) => (.error error, after)
        | (.ok (), after) =>
            (.ok request.path,
              after.withLines [] (if verbose then ["Created " ++ request.path] else [])) := by
  have target : (Host.kind? request.target : StateM World _).run world =
      (world.kind? request.target, world) := rfl
  have path : (Host.kind? request.path : StateM World _).run world =
      (world.kind? request.path, world) := rfl
  rw [createConfiguration, run_bind_eq _ target]
  change StateT.run (if request.isBlocked world then _ else Host.kind? request.path >>= _) world = _
  split
  · rfl
  · rw [run_bind_eq _ path]
    split
    · rfl
    · cases saved : (Config.save {} request.path : StateM World _).run world with
      | mk result after =>
          change StateT.run (Config.save {} request.path >>= _) world = _
          rw [run_bind_eq _ saved]
          cases result with
          | error error => rfl
          | ok _ =>
              cases verbose with
              | false => exact congrArg _ after.withLines_nil.symm
              | true =>
                  have announced := after.withLines_printError ("Created " ++ request.path) [] []
                  rw [World.withLines_nil] at announced
                  exact congrArg _ announced

/-- The command makes directories and then writes a file, unless it fails before the file is
opened. It gets that far only if the file may be replaced or was not found. -/
theorem run_createConfiguration_cases (verbose : Bool) (request : InitRequest)
    (rendered : ({} : Config).render = .ok text) (plain : world.device = fun _ => none) :
    ∃ ready, World.Made (Path.ancestors request.path) world ready ∧
      ((∃ error, (createConfiguration verbose request : StateM World _).run world =
          (.error error, ready)) ∨
        request.isBlocked world = false ∧
          (request.force = false → world.kind? request.path = none) ∧
          ∃ place contents lines, ready.files.target request.path = .ok (place, contents) ∧
            (createConfiguration verbose request : StateM World _).run world =
              (.ok request.path, (ready.put place text.toUTF8).withLines [] lines)) := by
  rw [run_createConfiguration]
  split
  · exact ⟨world, .refl _ world, .inl ⟨_, rfl⟩⟩
  · next free =>
      split
      · exact ⟨world, .refl _ world, .inl ⟨_, rfl⟩⟩
      · next unclaimed =>
          obtain ⟨ready, made, outcome⟩ := Config.run_save_cases rendered request.path plain
          refine ⟨ready, made, ?_⟩
          rcases outcome with ⟨cause, failed⟩ | ⟨place, contents, target, saved⟩
          · rw [failed]
            exact .inl ⟨_, rfl⟩
          · rw [saved]
            refine .inr ⟨Bool.eq_false_iff.mpr free, ?_, place, contents, _, target, rfl⟩
            intro unforced
            rw [unforced, Bool.not_false, Bool.and_true] at unclaimed
            exact Option.not_isSome_iff_eq_none.mp unclaimed

end Steps

/-! ### What becomes of the files -/

/-- What has become of a world in which a configuration file with the defaults was created. -/
structure World.Created (path : String) (place : Place) (world after : World) : Prop where
  located : after.files.locate path = .ok place
  loads : (Config.load path : StateM World _).run after = (.ok {}, after)
  elsewhere : ∀ other, other ≠ place → after.files.entry other = world.files.entry other ∨
    world.files.entry other = none ∧ after.files.entry other = some .directory ∧
      ∃ parent ∈ Path.ancestors path, after.files.locate parent = .ok other
  readable : ∀ other contents, world.files.locate other ≠ .ok place →
    world.files.read other = .ok contents → after.files.read other = .ok contents
  workingDirectory : after.files.workingDirectory = world.files.workingDirectory

theorem World.Made.created {world ready after : World} {path text : String} {place : Place}
    {contents : ByteArray} (made : Made (Path.ancestors path) world ready)
    (target : ready.files.target path = .ok (place, contents))
    (rendered : ({} : Config).render = .ok text)
    (files : after.files = ready.files.put place (.file text.toUTF8)) :
    Created path place world after := by
  have notDirectory := FileSystem.notDirectory_of_target target
  have locatedStill (other : String) (there : Place)
      (located : ready.files.locate other = .ok there) :
      after.files.locate other = .ok there := by
    rw [files]
    exact FileSystem.locate_put notDirectory located
  have entryStill (other : Place) (different : other ≠ place) :
      after.files.entry other = ready.files.entry other := by
    rw [files]
    exact FileSystem.entry_put_of_ne ready.files _ different
  constructor
  case located => exact locatedStill path place (FileSystem.target_eq_ok_iff.mp target).2.1
  case loads =>
    have readable : after.files.read path = .ok text.toUTF8 := by
      rw [files]
      exact FileSystem.read_put target
    exact Config.run_load readable (Config.parse_render rendered)
  case elsewhere =>
    intro other different
    rw [entryStill other different]
    rcases made.grown.files.entry other with same | ⟨missing, isDirectory⟩
    · exact .inl same
    · obtain ⟨parent, above, located⟩ := made.locate other missing (by rw [isDirectory]; simp)
      exact .inr ⟨missing, isDirectory, parent, above, locatedStill parent other located⟩
  case readable =>
    intro other contents elsewhere readable
    obtain ⟨noSlash, there, located, stands⟩ := FileSystem.read_eq_ok_iff.mp readable
    have different : there ≠ place := by
      rintro rfl
      exact elsewhere located
    have standsStill := made.grown.files.entry_eq_some stands
    rw [← entryStill there different] at standsStill
    exact FileSystem.read_eq_ok_iff.mpr
      ⟨noSlash, there, locatedStill other there (made.grown.files.locate located), standsStill⟩
  case workingDirectory =>
    rw [files]
    exact made.grown.files.workingDirectory

/-- A file that is there is not replaced, whatever it holds. -/
theorem run_createConfiguration_again (verbose : Bool) {request : InitRequest}
    (unforced : request.force = false) {world : World} {place : Place} {contents : ByteArray}
    (located : world.files.locate request.path = .ok place)
    (stands : world.files.entry place = some (.file contents)) :
    (createConfiguration verbose request : StateM World _).run world =
      (.error (.configurationExists request.path), world) := by
  have free := InitRequest.isBlocked_eq_false_iff.mpr (InitRequest.kind?_target located)
  have readable := FileSystem.read_eq_ok_iff.mpr
    ⟨request.endsInSlash_path, place, located, stands⟩
  obtain ⟨kind, leads⟩ := World.exists_kind?_of_read readable
  rw [run_createConfiguration, free, if_neg Bool.false_ne_true, leads, unforced]
  rfl

/-- Creating a configuration file leaves every other file as it is. The file is at the path that
was asked for and holds the defaults. On failure there is no new file, and no file has changed.

Unless files may be replaced, the path led to nothing before. Nothing stood at its end, then,
unless the path steps back behind a directory that was missing. A file that is there stays, as
does one that was created and edited. -/
theorem init_keeps_files (files : FileSystem) (output errors : ByteArray) (verbose : Bool)
    (request : InitRequest) :
    let world : World := { files, output, errors }
    let run := (createConfiguration verbose request : StateM World _).run world
    (∀ error, run.1 = .error error → World.Made (Path.ancestors request.path) world run.2) ∧
      ∀ path, run.1 = .ok path → path = request.path ∧ ∃ place,
        World.Created path place world run.2 ∧
        (request.force = false → world.kind? path = none ∧ (files.Proper →
          files.entry place = none ∨
            world.kind? request.target = none ∧ ".." ∈ Path.steps request.target)) ∧
        ∀ (loud : Bool) (again : InitRequest) (contents : ByteArray), again.force = false →
          run.2.files.locate again.path = .ok place →
          let edited := run.2.put place contents
          (createConfiguration loud again : StateM World _).run edited =
            (.error (.configurationExists again.path), edited) := by
  intro world run
  obtain ⟨text, rendered⟩ : ∃ text, ({} : Config).render = .ok text := ⟨_, rfl⟩
  have plain : world.device = fun _ => none := rfl
  obtain ⟨ready, made, ⟨error, failed⟩ | ⟨free, unclaimed, place, contents, lines, target, done⟩⟩ :=
    run_createConfiguration_cases verbose request rendered plain
  · have run_eq : run = (.error error, ready) := failed
    rw [run_eq]
    exact ⟨fun _ _ => made, by rintro path ⟨⟩⟩
  · have run_eq : run = (.ok request.path, (ready.put place text.toUTF8).withLines [] lines) := done
    rw [run_eq]
    refine ⟨by rintro error ⟨⟩, ?_⟩
    rintro path ⟨⟩
    refine ⟨rfl, place, made.created target rendered rfl, ?_, ?_⟩
    · intro unforced
      have missing := unclaimed unforced
      refine ⟨missing, fun proper => ?_⟩
      have located := (FileSystem.target_eq_ok_iff.mp target).2.1
      exact made.entry_eq_none proper missing (InitRequest.isBlocked_eq_false_iff.mp free) located
    · intro loud again contents unforced located edited
      have isFile := FileSystem.entry_put_self ready.files place (.file text.toUTF8)
      have locatedStill : edited.files.locate again.path = .ok place :=
        FileSystem.locate_put (fun isDirectory => nomatch isFile.symm.trans isDirectory) located
      have stands : edited.files.entry place = some (.file contents) :=
        FileSystem.entry_put_self _ place _
      exact run_createConfiguration_again loud unforced locatedStill stands

/-- While `a` is missing, `a/..` does not lead back to the file that has been created and edited.
Once `a` has been made it does, and the file is replaced though nobody asked for this. -/
theorem init_behind_missing_directory_replaces_file :
    let files : FileSystem :=
      { entry := fun place => if place = [] then some .directory else none
        workingDirectory := [] }
    let first := (createConfiguration false {} : StateM World _).run { files }
    let edited := first.2.put ["ratt.toml"] "verbose = true\n".toUTF8
    let again : InitRequest := { directory := some "a/..", force := false }
    let second := (createConfiguration false again : StateM World _).run edited
    first.1 = .ok "./ratt.toml" ∧ edited.files.read "ratt.toml" = .ok "verbose = true\n".toUTF8 ∧
      second.1 = .ok "a/../ratt.toml" ∧
      second.2.files.read "ratt.toml" ≠ edited.files.read "ratt.toml" := by
  decide +kernel

end Tokenizer
