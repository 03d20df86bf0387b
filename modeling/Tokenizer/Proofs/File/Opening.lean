import Tokenizer.File.System

/-!
Files that are opened and written.

A file that is put where a path leads, and where no directory stands, is no directory on any way.
So every path that led somewhere leads there still.
-/

namespace Tokenizer.FileSystem

variable {files after : FileSystem} {path : String} {place there start : Place}
  {steps : List String} {entry : FileEntry} {contents : ByteArray}

theorem put_put (files : FileSystem) (place : Place) (former latter : FileEntry) :
    (files.put place former).put place latter = files.put place latter := by
  simp only [put]
  congr 1
  funext other
  by_cases same : other = place <;> simp [same]

theorem entry_put_self (files : FileSystem) (place : Place) (entry : FileEntry) :
    (files.put place entry).entry place = some entry :=
  if_pos rfl

theorem entry_put_of_ne (files : FileSystem) (entry : FileEntry) (different : there ≠ place) :
    (files.put place entry).entry there = files.entry there :=
  if_neg different

/-! ### Ways that stay -/

theorem follow_of_kept
    (kept : ∀ place, files.entry place = some .directory → after.entry place = some .directory)
    (followed : files.follow start steps = .ok there) : after.follow start steps = .ok there := by
  induction steps generalizing start with
  | nil => exact followed
  | cons step steps inductionHypothesis =>
      rw [follow] at followed ⊢
      split at followed
      · cases followed
      · cases followed
      · next isDirectory =>
          rw [kept start isDirectory]
          split at followed
          · cases followed
          · next short =>
              rw [if_neg short]
              exact inductionHypothesis followed

/-- While directories stay, a path leads where it led. -/
theorem locate_of_kept
    (kept : ∀ place, files.entry place = some .directory → after.entry place = some .directory)
    (workingDirectory : after.workingDirectory = files.workingDirectory)
    (located : files.locate path = .ok there) : after.locate path = .ok there := by
  rw [locate, walk] at located ⊢
  split at located
  · cases located
  · rw [workingDirectory]
    exact follow_of_kept kept located

theorem locate_put (notDirectory : files.entry place ≠ some .directory)
    (located : files.locate path = .ok there) :
    (files.put place entry).locate path = .ok there := by
  have kept (other : Place) (isDirectory : files.entry other = some .directory) :
      (files.put place entry).entry other = some .directory := by
    have different : other ≠ place := by
      rintro rfl
      exact notDirectory isDirectory
    rw [entry_put_of_ne files entry different, isDirectory]
  exact locate_of_kept kept rfl located

/-! ### What a path is opened for -/

/-- A file is read where it stands at the end of a path. -/
theorem read_eq_ok_iff : files.read path = .ok contents ↔
    Path.endsInSlash path = false ∧ ∃ place, files.locate path = .ok place ∧
      files.entry place = some (.file contents) := by
  rw [read, lookUp]
  cases located : files.locate path with
  | error error => simp
  | ok place =>
      cases stands : files.entry place with
      | none => simp [stands]
      | some entry =>
          cases entry with
          | directory => simp [stands]
          | file found => cases slash : Path.endsInSlash path <;> simp [stands]

/-- What is opened for writing is a file at the end of a path, or nothing stands there yet. -/
theorem target_eq_ok_iff : files.target path = .ok (place, contents) ↔
    Path.endsInSlash path = false ∧ files.locate path = .ok place ∧
      (files.entry place = some (.file contents) ∨
        files.entry place = none ∧ contents = ByteArray.empty) := by
  rw [target]
  cases slash : Path.endsInSlash path with
  | true => cases files.walk path ((Path.steps path).dropLast ++ ["."]) <;> simp
  | false =>
      cases located : files.locate path with
      | error error => simp
      | ok there =>
          simp only [Bool.false_eq_true, if_false]
          constructor
          · intro opened
            cases stands : files.entry there with
            | none =>
                simp only [stands] at opened
                cases opened
                exact ⟨trivial, rfl, .inr ⟨stands, rfl⟩⟩
            | some entry =>
                simp only [stands] at opened
                cases entry <;> cases opened
                exact ⟨trivial, rfl, .inl stands⟩
          · rintro ⟨_, same, stands | ⟨stands, rfl⟩⟩ <;> cases same <;> simp only [stands]

theorem notDirectory_of_target (opened : files.target path = .ok (place, contents)) :
    files.entry place ≠ some .directory := by
  rcases (target_eq_ok_iff.mp opened).2.2 with stands | ⟨stands, _⟩ <;> simp [stands]

variable {new : ByteArray}

theorem target_put (opened : files.target path = .ok (place, contents)) :
    (files.put place (.file new)).target path = .ok (place, new) := by
  rcases target_eq_ok_iff.mp opened with ⟨noSlash, located, _⟩
  have locatedStill : (files.put place (.file new)).locate path = .ok place :=
    locate_put (notDirectory_of_target opened) located
  exact target_eq_ok_iff.mpr ⟨noSlash, locatedStill, .inl (entry_put_self files place _)⟩

theorem read_of_target (opened : files.target path = .ok (place, contents)) :
    (files.read path).toOption.getD ByteArray.empty = contents := by
  rcases target_eq_ok_iff.mp opened with ⟨noSlash, located, stands | ⟨stands, rfl⟩⟩
  · rw [read_eq_ok_iff.mpr ⟨noSlash, place, located, stands⟩]
    rfl
  · have missing : files.read path = .error .notFound := by
      simp only [read, lookUp, located, stands]
    rw [missing]
    rfl

theorem read_put (opened : files.target path = .ok (place, contents)) :
    (files.put place (.file new)).read path = .ok new := by
  rcases target_eq_ok_iff.mp (target_put opened) with ⟨noSlash, located, _⟩
  exact read_eq_ok_iff.mpr ⟨noSlash, place, located, entry_put_self files place _⟩

/-! ### Opening and adding -/

theorem openForWriting_eq (opened : files.target path = .ok (place, contents)) (append : Bool) :
    files.openForWriting path append =
      (.ok (), files.put place (.file (if append then contents else ByteArray.empty))) := by
  rw [openForWriting, opened]

theorem openForWriting_of_error {append : Bool} {cause : SystemError}
    (refused : (openForWriting path append files).1 = .error cause) :
    openForWriting path append files = (.error cause, files) := by
  rw [openForWriting] at refused ⊢
  split at refused
  · cases refused
    rfl
  · cases refused

/-- A file that can be opened is one that opening found, or makes. -/
theorem exists_target_of_openForWriting {append : Bool}
    (opened : (openForWriting path append files).1 = .ok ()) :
    ∃ place contents, files.target path = .ok (place, contents) := by
  rw [openForWriting] at opened
  split at opened
  · cases opened
  · next place contents target => exact ⟨place, contents, target⟩

theorem append_put (opened : files.target path = .ok (place, contents)) (bytes : ByteArray) :
    append path bytes (files.put place (.file new)) =
      (.ok (), files.put place (.file (new ++ bytes))) := by
  simp only [append, target_put opened, put_put]

end Tokenizer.FileSystem
