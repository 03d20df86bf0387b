import Tokenizer.Proofs.File.Host
import Tokenizer.Proofs.File.Opening

/-!
Directories that are made.

A directory is made only where nothing stands. What stood is still there, every path that led
somewhere leads there still, and every file can be read as before.
-/

namespace Tokenizer

namespace FileSystem

variable {files after last : FileSystem} {path : String} {place : Place} {entry : FileEntry}
  {contents : ByteArray}

/-- Nothing has changed, but there may be directories where nothing stood. -/
structure Grown (files after : FileSystem) : Prop where
  workingDirectory : after.workingDirectory = files.workingDirectory
  entry : ∀ place, after.entry place = files.entry place ∨
    files.entry place = none ∧ after.entry place = some .directory

namespace Grown

theorem refl (files : FileSystem) : Grown files files :=
  ⟨rfl, fun _ => .inl rfl⟩

theorem entry_eq_some (grown : Grown files after) (stands : files.entry place = some entry) :
    after.entry place = some entry := by
  rcases grown.entry place with same | ⟨missing, _⟩
  · rw [same, stands]
  · rw [stands] at missing
    cases missing

theorem trans (former : Grown files after) (latter : Grown after last) : Grown files last := by
  refine ⟨latter.workingDirectory.trans former.workingDirectory, ?_⟩
  intro place
  rcases former.entry place with same | ⟨missing, made⟩
  · rw [← same]
    exact latter.entry place
  · exact .inr ⟨missing, latter.entry_eq_some made⟩

theorem directory_or_missing (grown : Grown files after)
    (isDirectory : after.entry place = some .directory) :
    files.entry place = some .directory ∨ files.entry place = none := by
  rcases grown.entry place with same | ⟨missing, _⟩
  · exact .inl (same.symm.trans isDirectory)
  · exact .inr missing

theorem locate (grown : Grown files after) (located : files.locate path = .ok place) :
    after.locate path = .ok place :=
  locate_of_kept (fun _ => grown.entry_eq_some) grown.workingDirectory located

theorem read (grown : Grown files after) (readable : files.read path = .ok contents) :
    after.read path = .ok contents := by
  rcases read_eq_ok_iff.mp readable with ⟨noSlash, place, located, stands⟩
  exact read_eq_ok_iff.mpr ⟨noSlash, place, grown.locate located, grown.entry_eq_some stands⟩

end Grown

theorem grown_makeDirectory (path : String) (files : FileSystem) :
    Grown files (makeDirectory path files).2 := by
  rw [makeDirectory]
  split
  · exact .refl files
  · next place _ =>
      split
      · exact .refl files
      · next missing =>
          refine ⟨rfl, fun other => ?_⟩
          by_cases same : other = place
          · subst same
            exact .inr ⟨missing, entry_put_self files other _⟩
          · exact .inl (entry_put_of_ne files _ same)

/-- What is made is what the path leads to. -/
theorem locate_of_makeDirectory (missing : files.entry place = none)
    (made : (makeDirectory path files).2.entry place ≠ none) : files.locate path = .ok place := by
  rw [makeDirectory] at made
  split at made
  · exact absurd missing made
  · next there located =>
      split at made
      · exact absurd missing made
      · by_cases same : place = there
        · rw [located, same]
        · rw [entry_put_of_ne files _ same] at made
          exact absurd missing made

end FileSystem

namespace World

/-- Nothing has changed, but there may be directories where nothing stood. -/
structure Grown (world after : World) : Prop where
  files : FileSystem.Grown world.files after.files
  others : after = { world with files := after.files }

namespace Grown

theorem refl (world : World) : Grown world world :=
  ⟨.refl world.files, rfl⟩

theorem trans {world after last : World} (former : Grown world after) (latter : Grown after last) :
    Grown world last := by
  refine ⟨former.files.trans latter.files, ?_⟩
  rw [latter.others, former.others]

end Grown

/-- Nothing has changed, but directories may have been made at some of these paths. -/
structure Made (paths : List String) (world after : World) : Prop where
  grown : Grown world after
  locate : ∀ place, world.files.entry place = none → after.files.entry place ≠ none →
    ∃ path ∈ paths, after.files.locate path = .ok place

namespace Made

variable {paths others : List String} {world after last : World}

theorem refl (paths : List String) (world : World) : Made paths world world :=
  ⟨.refl world, fun _ missing made => absurd missing made⟩

theorem trans (former : Made paths world after) (latter : Made paths after last) :
    Made paths world last := by
  refine ⟨former.grown.trans latter.grown, ?_⟩
  intro place missing made
  cases stands : after.files.entry place with
  | none => exact latter.locate place stands made
  | some entry =>
      rcases former.locate place missing (by rw [stands]; simp) with ⟨path, listed, located⟩
      exact ⟨path, listed, latter.grown.files.locate located⟩

theorem of_subset (made : Made paths world after) (included : paths ⊆ others) :
    Made others world after := by
  refine ⟨made.grown, ?_⟩
  intro place missing stands
  rcases made.locate place missing stands with ⟨path, listed, located⟩
  exact ⟨path, included listed, located⟩

end Made

end World

section Steps

variable {world : World} {path : String}

theorem run_makeDirectory (path : String) (world : World) :
    (Host.makeDirectory path : StateM World _).run world =
      world.change (FileSystem.makeDirectory path) :=
  rfl

theorem made_ensureDirectory (path : String) (world : World) :
    World.Made [path] world ((Host.ensureDirectory path : StateM World _).run world).2 := by
  have made : World.Made [path] world (world.change (FileSystem.makeDirectory path)).2 := by
    have grown := FileSystem.grown_makeDirectory path world.files
    refine ⟨⟨grown, rfl⟩, ?_⟩
    intro place missing stands
    have located := FileSystem.locate_of_makeDirectory missing stands
    exact ⟨path, List.mem_singleton_self path, grown.locate located⟩
  rw [Host.ensureDirectory]
  cases outcome : world.change (FileSystem.makeDirectory path) with
  | mk result after =>
      rw [outcome] at made
      rw [run_bind_eq _ ((run_makeDirectory path world).trans outcome)]
      cases result with
      | ok _ => exact made
      | error cause =>
          have kind : (Host.kind? path : StateM World _).run after =
              (after.kind? path, after) := rfl
          simp only
          rw [run_bind_eq _ kind]
          split <;> exact made

theorem made_ensureDirectories (paths : List String) (world : World) :
    World.Made paths world ((Host.ensureDirectories paths : StateM World _).run world).2 := by
  induction paths generalizing world with
  | nil => exact .refl [] world
  | cons path above inductionHypothesis =>
      have ensuring (world : World) : World.Made (path :: above) world
          ((Host.ensureDirectory path : StateM World _).run world).2 :=
        (made_ensureDirectory path world).of_subset (by simp)
      have first := ensuring world
      rw [Host.ensureDirectories]
      cases ensured : (Host.ensureDirectory path : StateM World _).run world with
      | mk result after =>
          rw [ensured] at first
          rw [run_bind_eq _ ensured]
          split
          · have rest := first.trans ((inductionHypothesis after).of_subset (by simp))
            cases made : (Host.ensureDirectories above : StateM World _).run after with
            | mk result later =>
                rw [made] at rest
                rw [run_bind_eq _ made]
                cases result with
                | ok _ => exact rest.trans (ensuring later)
                | error cause => exact rest
          · exact first

theorem made_createAncestors (path : String) (world : World) :
    World.Made (Path.ancestors path) world
      ((Host.createAncestors path : StateM World _).run world).2 :=
  made_ensureDirectories (Path.ancestors path) world

theorem exists_of_kind?_eq_directory (stands : world.kind? path = some .directory) :
    ∃ place, world.files.locate path = .ok place ∧ world.files.entry place = some .directory := by
  rw [World.kind?, FileSystem.lookUp] at stands
  cases located : world.files.locate path with
  | error error => simp [located] at stands
  | ok place =>
      cases entry : world.files.entry place with
      | none => simp [located, entry] at stands
      | some found =>
          cases found with
          | directory => exact ⟨place, rfl, entry⟩
          | file contents =>
              cases slash : Path.endsInSlash path with
              | true => simp [located, entry, slash] at stands
              | false => cases device : world.device? path <;>
                  simp [located, entry, slash, device] at stands

theorem run_ensureDirectory_of_directory (stands : world.kind? path = some .directory) :
    (Host.ensureDirectory path : StateM World _).run world = (.ok (), world) := by
  have refused : world.change (FileSystem.makeDirectory path) = (.error .alreadyExists, world) := by
    obtain ⟨place, located, entry⟩ := exists_of_kind?_eq_directory stands
    simp only [World.change, FileSystem.makeDirectory, located, entry]
  have kind : (Host.kind? path : StateM World _).run world = (some .directory, world) := by
    rw [← stands]
    rfl
  rw [Host.ensureDirectory, run_bind_eq _ ((run_makeDirectory path world).trans refused)]
  simp only
  rw [run_bind_eq _ kind]
  rfl

/-- Nothing has to be made if the directory above a path is there. -/
theorem run_createAncestors_of_directory
    (stands : ∀ parent ∈ (Path.ancestors path).head?, world.kind? parent = some .directory) :
    (Host.createAncestors path : StateM World _).run world = (.ok (), world) := by
  rw [Host.createAncestors]
  cases ancestors : Path.ancestors path with
  | nil => rfl
  | cons parent above =>
      have ensured := run_ensureDirectory_of_directory (stands parent (by rw [ancestors]; rfl))
      rw [Host.ensureDirectories, run_bind_eq _ ensured]
      rfl

end Steps

end Tokenizer
