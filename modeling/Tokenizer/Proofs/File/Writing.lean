import Tokenizer.Proofs.File.Host
import Tokenizer.Proofs.File.Opening

/-!
Writing files and printing lines on a machine that is a value.

What is written to a file is read there afterwards. A device takes what is written to it and keeps
nothing.
-/

namespace Tokenizer

/-! ### Writing -/

namespace World

variable {world after : World} {path : String} {place : Place} {contents bytes : ByteArray}

/-- What has become of a world in which some bytes were written to a path, behind what stood
there if that is kept. -/
structure Wrote (path : String) (keeps : Bool) (bytes : ByteArray) (world after : World) :
    Prop where
  file : world.device? path = none →
    after.files.read path = .ok ((if keeps then
      (world.files.read path).toOption.getD ByteArray.empty else ByteArray.empty) ++ bytes)
  elsewhere : ∀ place, world.files.locate path ≠ .ok place →
    after.files.entry place = world.files.entry place
  workingDirectory : after.files.workingDirectory = world.files.workingDirectory
  device : after.device = world.device
  output : after.output =
    if world.device? path = some .output then world.output ++ bytes else world.output
  errors : after.errors =
    if world.device? path = some .errors then world.errors ++ bytes else world.errors

/-- The world with a file at a place. -/
def put (place : Place) (contents : ByteArray) (world : World) : World :=
  { world with files := world.files.put place (.file contents) }

theorem device?_put (new : ByteArray) (target : world.files.target path = .ok (place, contents)) :
    (world.put place new).device? path = world.device? path := by
  have located := (FileSystem.target_eq_ok_iff.mp target).2.1
  have locatedStill : (world.put place new).files.locate path = .ok place :=
    (FileSystem.target_eq_ok_iff.mp (FileSystem.target_put target)).2.1
  rw [device?, device?, located, locatedStill]
  rfl

theorem change_openForWriting (target : world.files.target path = .ok (place, contents))
    (keeps : Bool) :
    world.change (FileSystem.openForWriting path keeps) =
      (.ok (), world.put place (if keeps then contents else ByteArray.empty)) := by
  rw [change, FileSystem.openForWriting_eq target]
  rfl

theorem change_openForWriting_of_error {keeps : Bool} {cause : SystemError}
    (refused : (FileSystem.openForWriting path keeps world.files).1 = .error cause) :
    world.change (FileSystem.openForWriting path keeps) = (.error cause, world) := by
  rw [change, FileSystem.openForWriting_of_error refused]

theorem append_put (target : world.files.target path = .ok (place, contents))
    (noDevice : world.device? path = none) (kept bytes : ByteArray) :
    (world.put place kept).append path bytes = (.ok (), world.put place (kept ++ bytes)) := by
  rw [append, device?_put kept target, noDevice]
  simp only [change, put, FileSystem.append_put target]

/-- Once a path has been opened, bytes can be written to it, unless a full device stands there. -/
theorem exists_append_put (target : world.files.target path = .ok (place, contents))
    (takes : world.device? path ≠ some .full) (kept bytes : ByteArray) :
    ∃ after : World, (world.put place kept).append path bytes = (.ok (), after) ∧
      after.files = world.files.put place
        (.file (if world.device? path = none then kept ++ bytes else kept)) ∧
      after.device = world.device ∧
      (after.output =
        if world.device? path = some .output then world.output ++ bytes else world.output) ∧
      after.errors =
        if world.device? path = some .errors then world.errors ++ bytes else world.errors := by
  cases leads : world.device? path with
  | none => exact ⟨_, append_put target leads kept bytes, rfl, rfl, rfl, rfl⟩
  | some device =>
      rw [append, device?_put kept target, leads]
      cases device with
      | full => exact absurd leads takes
      | _ => exact ⟨_, rfl, rfl, rfl, rfl, rfl⟩

theorem exists_wrote {keeps : Bool}
    (opens : (FileSystem.openForWriting path keeps world.files).1 = .ok ())
    (takes : world.device? path ≠ some .full) (bytes : ByteArray) :
    ∃ opened after, world.change (FileSystem.openForWriting path keeps) = (.ok (), opened) ∧
      opened.append path bytes = (.ok (), after) ∧ Wrote path keeps bytes world after := by
  rcases FileSystem.exists_target_of_openForWriting opens with ⟨place, contents, target⟩
  rcases exists_append_put target takes (if keeps then contents else ByteArray.empty) bytes with
    ⟨after, appended, files, device, output, errors⟩
  refine ⟨_, after, change_openForWriting target keeps, appended, ?_⟩
  constructor
  case file =>
    intro notDevice
    rw [files, if_pos notDevice, FileSystem.read_of_target target]
    exact FileSystem.read_put target
  case elsewhere =>
    intro other elsewhere
    rw [files]
    apply FileSystem.entry_put_of_ne
    rintro rfl
    exact elsewhere (FileSystem.target_eq_ok_iff.mp target).2.1
  case workingDirectory => rw [files, FileSystem.put]
  case device => exact device
  case output => exact output
  case errors => exact errors

theorem device?_of_files_eq (target : world.files.target path = .ok (place, contents))
    {new : ByteArray} (files : after.files = world.files.put place (.file new))
    (device : after.device = world.device) : after.device? path = world.device? path := by
  rw [← device?_put new target, device?, device?, files, device]
  rfl

theorem run_write_of_error {cause : SystemError}
    (refused : (FileSystem.openForWriting path false world.files).1 = .error cause) :
    (Host.write path bytes : StateM World _).run world = (.error cause, world) := by
  have opens : (Host.openForWriting path false : StateM World _).run world =
      (.error cause, world) := change_openForWriting_of_error refused
  rw [Host.write, run_bind_eq _ opens]
  rfl

theorem run_write (target : world.files.target path = .ok (place, contents))
    (noDevice : world.device? path = none) :
    (Host.write path bytes : StateM World _).run world = (.ok (), world.put place bytes) := by
  have opens : (Host.openForWriting path false : StateM World _).run world =
      (.ok (), world.put place ByteArray.empty) := change_openForWriting target false
  have appended := append_put target noDevice ByteArray.empty bytes
  rw [ByteArray.empty_append] at appended
  rw [Host.write, run_bind_eq _ opens]
  exact appended

/-- What is written to a file is read there. A device keeps nothing. -/
theorem read_of_write
    (wrote : (Host.write path bytes : StateM World _).run world = (.ok (), after)) :
    after.files.read path = .ok (if after.device? path = none then bytes else ByteArray.empty) := by
  cases opening : (FileSystem.openForWriting path false world.files).1 with
  | error cause =>
      rw [run_write_of_error opening] at wrote
      cases wrote
  | ok _ =>
      rcases FileSystem.exists_target_of_openForWriting opening with ⟨place, contents, target⟩
      have opens : (Host.openForWriting path false : StateM World _).run world =
          (.ok (), world.put place ByteArray.empty) := change_openForWriting target false
      rw [Host.write, run_bind_eq _ opens] at wrote
      change (world.put place ByteArray.empty).append path bytes = (.ok (), after) at wrote
      have files : after.files = world.files.put place
          (.file (if world.device? path = none then bytes else ByteArray.empty)) ∧
          after.device = world.device := by
        by_cases full : world.device? path = some .full
        · rw [append, device?_put _ target, full] at wrote
          cases (Prod.mk.inj wrote).2
          exact ⟨by rw [full]; rfl, rfl⟩
        · rcases exists_append_put target full ByteArray.empty bytes with
            ⟨written, appended, files, device, _⟩
          rw [appended] at wrote
          cases wrote
          rw [ByteArray.empty_append] at files
          exact ⟨files, device⟩
      rw [device?_of_files_eq target files.1 files.2, files.1]
      exact FileSystem.read_put target

theorem exists_kind?_of_read (readable : world.files.read path = .ok bytes) :
    ∃ kind, world.kind? path = some kind := by
  rcases FileSystem.read_eq_ok_iff.mp readable with ⟨noSlash, place, located, stands⟩
  exact ⟨_, by simp only [kind?, FileSystem.lookUp, located, stands, noSlash]; rfl⟩

end World

/-! ### Printing -/

/-- Lines as they are printed. -/
def printed (lines : List String) : ByteArray :=
  (String.join (lines.map fun line => line ++ "\n")).toUTF8

theorem printed_cons (line : String) (lines : List String) :
    printed (line :: lines) = (line ++ "\n").toUTF8 ++ printed lines := by
  simp [printed, String.toByteArray_append]

/-- A world in which lines have been printed, the latter ones on the stream for errors. -/
def World.withLines (world : World) (lines errorLines : List String) : World :=
  { world with
    output := world.output ++ printed lines
    errors := world.errors ++ printed errorLines }

theorem World.withLines_nil (world : World) : world.withLines [] [] = world := by
  have nothing (bytes : ByteArray) : bytes ++ printed [] = bytes := ByteArray.append_empty
  rw [withLines, nothing, nothing]

theorem World.withLines_print (world : World) (line : String) (lines errorLines : List String) :
    (world.print (line ++ "\n").toUTF8).withLines lines errorLines =
      world.withLines (line :: lines) errorLines := by
  simp only [withLines, print, printed_cons, ByteArray.append_assoc]

theorem World.withLines_printError (world : World) (line : String)
    (lines errorLines : List String) :
    (world.printError (line ++ "\n").toUTF8).withLines lines errorLines =
      world.withLines lines (line :: errorLines) := by
  simp only [withLines, printError, printed_cons, ByteArray.append_assoc]

end Tokenizer
