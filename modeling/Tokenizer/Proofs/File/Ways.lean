import Tokenizer.Proofs.File.Directories

/-!
The way to a name in a directory.

The steps along the joined path are the steps to the directory and one more. So the name is
reached through the directory. A way that steps back nowhere leads only further down, so where a
directory is missing on such a way there is nothing at its end either.
-/

namespace Tokenizer

namespace Path

theorem splitBy_ne_nil (separator : Char) (characters : List Char) :
    splitBy separator characters ≠ [] := by
  cases characters with
  | nil => simp [splitBy]
  | cons character rest =>
      rw [splitBy]
      split
      · simp
      · split <;> simp

theorem splitBy_append_cons (separator : Char) (first second : List Char) :
    splitBy separator (first ++ separator :: second) =
      splitBy separator first ++ splitBy separator second := by
  induction first with
  | nil => simp [splitBy]
  | cons character first inductionHypothesis =>
      rw [List.cons_append, splitBy, splitBy, inductionHypothesis]
      split
      · rfl
      · cases parts : splitBy separator first with
        | nil => exact absurd parts (splitBy_ne_nil separator first)
        | cons => rfl

/-- The steps along some characters. -/
def stepsOf (characters : List Char) : List String :=
  ((splitBy '/' characters).map String.ofList).filter fun part => part != ""

theorem stepsOf_append_slash (first second : List Char) :
    stepsOf (first ++ '/' :: second) = stepsOf first ++ stepsOf second := by
  rw [stepsOf, splitBy_append_cons, List.map_append, List.filter_append]
  rfl

theorem stepsOf_concat_slash (first : List Char) : stepsOf (first ++ ['/']) = stepsOf first := by
  rw [stepsOf_append_slash]
  exact List.append_nil _

theorem exists_join (directory name : String) :
    ∃ gap, join directory name = directory ++ gap ++ name := by
  rw [join]
  split
  · exact ⟨"", by rw [String.append_empty]⟩
  · exact ⟨"/", rfl⟩

/-- The path of a name in a directory takes the steps to the directory and those of the name. -/
theorem steps_join (directory name : String) :
    steps (join directory name) = steps directory ++ steps name := by
  change stepsOf (join directory name).toList = stepsOf directory.toList ++ stepsOf name.toList
  by_cases empty : directory = ""
  · subst empty
    have joined : join "" name = name := String.empty_append
    rw [joined]
    rfl
  cases slash : endsInSlash directory with
  | true =>
      have joined : join directory name = directory ++ name := by simp [join, slash]
      obtain ⟨front, isFront⟩ : ∃ front, directory.toList = front ++ ['/'] := by
        rw [endsInSlash, beq_iff_eq] at slash
        exact List.getLast?_eq_some_iff.mp slash
      rw [joined, String.toList_append, isFront, List.append_assoc, List.singleton_append,
        stepsOf_append_slash, stepsOf_concat_slash]
  | false =>
      have joined : join directory name = directory ++ "/" ++ name := by
        simp [join, slash, empty]
      rw [joined, String.toList_append, String.toList_append, List.append_assoc]
      exact stepsOf_append_slash directory.toList name.toList

/-- A name is one step that begins where the path before it ends. -/
structure IsName (name : String) : Prop where
  steps : steps name = [name]
  relative : isAbsolute name = false
  noSlash : endsInSlash name = false

namespace IsName

variable {name : String}

theorem ne_empty (isName : IsName name) : name ≠ "" := by
  rintro rfl
  have nothing : Path.steps "" = [] := rfl
  cases nothing.symm.trans isName.steps

theorem isAbsolute_join (isName : IsName name) (directory : String) :
    isAbsolute (join directory name) = isAbsolute directory := by
  by_cases empty : directory = ""
  · subst empty
    have joined : join "" name = name := String.empty_append
    rw [joined, isName.relative]
    rfl
  · obtain ⟨gap, joined⟩ := exists_join directory name
    obtain ⟨first, rest, characters⟩ :=
      List.exists_cons_of_ne_nil (mt String.toList_eq_nil_iff.mp empty)
    rw [joined, isAbsolute, isAbsolute, String.toList_append, String.toList_append, characters]
    rfl

theorem endsInSlash_join (isName : IsName name) (directory : String) :
    endsInSlash (join directory name) = false := by
  obtain ⟨gap, joined⟩ := exists_join directory name
  rw [← isName.noSlash, joined, endsInSlash, endsInSlash, String.toList_append,
    List.getLast?_append]
  cases last : name.toList.getLast? with
  | none =>
      have empty := String.toList_eq_nil_iff.mp (List.getLast?_eq_none_iff.mp last)
      exact absurd empty isName.ne_empty
  | some character => rfl

end IsName

end Path

namespace FileSystem

variable {files after : FileSystem} {path directory name : String} {place start above : Place}
  {steps : List String} {error : SystemError}

/-- Where a path begins. -/
def beginning (files : FileSystem) (path : String) : Place :=
  if Path.isAbsolute path then [] else files.workingDirectory

theorem locate_of_allowed (allowed : Path.problem? path = none) :
    files.locate path = files.follow (files.beginning path) (Path.steps path) := by
  rw [locate, walk, allowed, beginning]

theorem locate_eq_ok_iff : files.locate path = .ok place ↔
    Path.problem? path = none ∧
      files.follow (files.beginning path) (Path.steps path) = .ok place := by
  cases problem : Path.problem? path with
  | some error => simp [locate, walk, problem]
  | none => simp [locate_of_allowed problem]

theorem follow_append (files : FileSystem) (start : Place) (steps others : List String) :
    files.follow start (steps ++ others) =
      (files.follow start steps).bind fun place => files.follow place others := by
  induction steps generalizing start with
  | nil => rfl
  | cons step steps inductionHypothesis =>
      rw [List.cons_append, follow, follow]
      split
      · rfl
      · rfl
      · split
        · rfl
        · exact inductionHypothesis _

theorem follow_single : files.follow above [name] = .ok place ↔
    files.entry above = some .directory ∧ name.utf8ByteSize ≤ Path.nameLimit ∧
      advance above name = place := by
  rw [follow]
  cases files.entry above with
  | none => simp
  | some entry =>
      cases entry with
      | file contents => simp
      | directory =>
          by_cases long : Path.nameLimit < name.utf8ByteSize
          · simp [long, Nat.not_le_of_lt long]
          · simp [long, follow, Nat.le_of_not_lt long]

/-- A name is reached from the directory that the path before it leads to. -/
theorem locate_join_iff (isName : Path.IsName name) :
    files.locate (Path.join directory name) = .ok place ↔
      Path.problem? (Path.join directory name) = none ∧
        ∃ above, files.follow (files.beginning directory) (Path.steps directory) = .ok above ∧
          files.entry above = some .directory ∧ name.utf8ByteSize ≤ Path.nameLimit ∧
          advance above name = place := by
  have sameBeginning : files.beginning (Path.join directory name) = files.beginning directory := by
    rw [beginning, beginning, isName.isAbsolute_join]
  rw [locate_eq_ok_iff, sameBeginning, Path.steps_join, isName.steps, follow_append]
  simp only [← follow_single]
  cases files.follow (files.beginning directory) (Path.steps directory) with
  | error error => simp [Except.bind]
  | ok above => simp [Except.bind]

/-! ### Ways that lead further down -/

/-- What stands at a place stands in a directory. -/
def Proper (files : FileSystem) : Prop :=
  ∀ place step, files.entry (place ++ [step]) ≠ none → files.entry place = some .directory

theorem Proper.entry_eq_none (proper : files.Proper) (missing : files.entry place = none)
    (more : List String) : files.entry (place ++ more) = none := by
  induction more generalizing place with
  | nil => rwa [List.append_nil]
  | cons step more inductionHypothesis =>
      have missingStep : files.entry (place ++ [step]) = none := by
        cases stands : files.entry (place ++ [step]) with
        | none => rfl
        | some entry =>
            rw [proper place step (by rw [stands]; simp)] at missing
            cases missing
      have behind := inductionHypothesis missingStep
      rwa [List.append_assoc] at behind

theorem exists_append_of_follow (onward : ".." ∉ steps)
    (followed : files.follow start steps = .ok place) : ∃ more, place = start ++ more := by
  induction steps generalizing start with
  | nil =>
      cases followed
      exact ⟨[], (List.append_nil _).symm⟩
  | cons step steps inductionHypothesis =>
      rw [List.mem_cons, not_or] at onward
      rw [follow] at followed
      split at followed
      · cases followed
      · cases followed
      · split at followed
        · cases followed
        · obtain ⟨more, rfl⟩ := inductionHypothesis onward.2 followed
          have different : (step == "..") = false := beq_false_of_ne (Ne.symm onward.1)
          rw [advance]
          split
          · exact ⟨more, rfl⟩
          · rw [different]
            exact ⟨step :: more, by simp⟩

/-- Steps that can be taken only since some directories have been made lead to where nothing
stood, unless one of them leads back. -/
theorem Grown.entry_eq_none_of_follow (grown : Grown files after) (proper : files.Proper)
    (onward : ".." ∉ steps) (reached : after.follow start steps = .ok place)
    (lost : files.follow start steps = .error error) : files.entry place = none := by
  induction steps generalizing start with
  | nil => cases lost
  | cons step steps inductionHypothesis =>
      have whole := exists_append_of_follow onward reached
      rw [List.mem_cons, not_or] at onward
      rw [follow] at reached
      split at reached
      · cases reached
      · cases reached
      · next isDirectory =>
          split at reached
          · cases reached
          · next short =>
              rcases grown.directory_or_missing isDirectory with stood | missing
              · rw [follow, stood] at lost
                simp only [if_neg short] at lost
                exact inductionHypothesis onward.2 reached lost
              · obtain ⟨more, rfl⟩ := whole
                exact proper.entry_eq_none missing more

theorem Grown.entry_eq_none_of_lost (grown : Grown files after) (proper : files.Proper)
    (onward : ".." ∉ Path.steps path) (located : after.locate path = .ok place)
    (lost : files.locate path = .error error) : files.entry place = none := by
  obtain ⟨allowed, reached⟩ := locate_eq_ok_iff.mp located
  have sameBeginning : after.beginning path = files.beginning path := by
    rw [beginning, beginning, grown.workingDirectory]
  rw [sameBeginning] at reached
  rw [locate_of_allowed allowed] at lost
  exact grown.entry_eq_none_of_follow proper onward reached lost

end FileSystem

end Tokenizer
