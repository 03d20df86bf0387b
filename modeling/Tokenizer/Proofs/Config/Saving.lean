import Tokenizer.Config.File
import Tokenizer.Proofs.Config.Document
import Tokenizer.Proofs.File.Directories
import Tokenizer.Proofs.File.Writing

/-!
A configuration that is saved is loaded again.

A number that does not fit the signed integers of 64 bits cannot be saved. Directories may have
been made by then, but what stood before is still there.
-/

namespace Tokenizer.Config

variable {config : Config} {path text : String} {world ready after : World}

/-! ### Saving -/

theorem run_save_of_not_made {cause : SystemError} (config : Config)
    (made : (Host.createAncestors path : StateM World _).run world = (.error cause, ready)) :
    (save config path : StateM World _).run world = (.error (.io cause), ready) := by
  rw [save, run_bind_eq _ made]
  rfl

theorem run_save_of_not_isWritable (unwritable : config.isWritable = false)
    (made : (Host.createAncestors path : StateM World _).run world = (.ok (), ready)) :
    (save config path : StateM World _).run world =
      (.error (.configurationUnwritable "integer out of range"), ready) := by
  rw [save, run_bind_eq _ made, render, unwritable]
  rfl

theorem run_save_of_write {result : Except SystemError Unit}
    (made : (Host.createAncestors path : StateM World _).run world = (.ok (), ready))
    (rendered : config.render = .ok text)
    (wrote : (Host.write path text.toUTF8 : StateM World _).run ready = (result, after)) :
    (save config path : StateM World _).run world = (result.mapError .io, after) := by
  rw [save, run_bind_eq _ made]
  simp only [rendered]
  rw [run_bind_eq _ wrote]
  cases result <;> rfl

theorem exists_of_run_save
    (saved : (save config path : StateM World _).run world = (.ok (), after)) :
    ∃ text ready, config.render = .ok text ∧
      (Host.write path text.toUTF8 : StateM World _).run ready = (.ok (), after) := by
  cases made : (Host.createAncestors path : StateM World _).run world with
  | mk result ready =>
      cases result with
      | error cause =>
          rw [run_save_of_not_made config made] at saved
          cases saved
      | ok _ =>
          cases rendered : config.render with
          | error problem =>
              rw [save, run_bind_eq _ made, rendered] at saved
              cases saved
          | ok text =>
              refine ⟨text, ready, rfl, ?_⟩
              cases wrote : (Host.write path text.toUTF8 : StateM World _).run ready with
              | mk result last =>
                  rw [run_save_of_write made rendered wrote] at saved
                  cases result <;> cases saved
                  rfl

theorem exists_run_save (writable : config.isWritable = true)
    (made : (Host.createAncestors path : StateM World _).run world = (.ok (), ready))
    (opens : (FileSystem.openForWriting path false ready.files).1 = .ok ())
    (takes : ready.device? path ≠ some .full) :
    ∃ after, (save config path : StateM World _).run world = (.ok (), after) := by
  rcases World.exists_wrote opens takes config.toLayout.write.toUTF8 with
    ⟨opened, after, opening, appending, _⟩
  have opened : (Host.openForWriting path false : StateM World _).run ready = (.ok (), opened) :=
    opening
  have wrote : (Host.write path config.toLayout.write.toUTF8 : StateM World _).run ready =
      (.ok (), after) := by
    rw [Host.write, run_bind_eq _ opened]
    exact appending
  have rendered : config.render = .ok config.toLayout.write := by rw [render, if_pos writable]
  exact ⟨after, run_save_of_write made rendered wrote⟩

/-- Saving makes directories and then writes a file, unless it fails before the file is opened. -/
theorem run_save_cases (rendered : config.render = .ok text)
    (path : String) (plain : world.device = fun _ => none) :
    ∃ ready, World.Made (Path.ancestors path) world ready ∧
      ((∃ cause, (save config path : StateM World _).run world = (.error (.io cause), ready)) ∨
        ∃ place contents, ready.files.target path = .ok (place, contents) ∧
          (save config path : StateM World _).run world =
            (.ok (), ready.put place text.toUTF8)) := by
  cases made : (Host.createAncestors path : StateM World _).run world with
  | mk result ready =>
      have making : World.Made (Path.ancestors path) world ready := by
        have making := made_createAncestors path world
        rwa [made] at making
      refine ⟨ready, making, ?_⟩
      cases result with
      | error cause => exact .inl ⟨cause, run_save_of_not_made config made⟩
      | ok _ =>
          cases opening : (FileSystem.openForWriting path false ready.files).1 with
          | error cause =>
              exact .inl ⟨cause, run_save_of_write made rendered (World.run_write_of_error opening)⟩
          | ok _ =>
              obtain ⟨place, contents, target⟩ :=
                FileSystem.exists_target_of_openForWriting opening
              have noDevice : ready.device? path = none := by
                rw [making.grown.others, World.device?, plain]
                split <;> rfl
              exact .inr ⟨place, contents, target,
                run_save_of_write made rendered (World.run_write target noDevice)⟩

/-! ### Loading -/

theorem run_load (readable : world.files.read path = .ok text.toUTF8)
    (parsed : parse text = .ok config) :
    (load path : StateM World _).run world = (.ok config, world) := by
  obtain ⟨kind, leads⟩ := World.exists_kind?_of_read readable
  have found : (Host.kind? path : StateM World _).run world = (some kind, world) := by
    rw [← leads]
    rfl
  rw [load, run_bind_eq _ found]
  simp only
  rw [run_bind_eq _ (run_readText readable)]
  simp only [parsed]
  rfl

theorem run_load_of_run_save
    (saved : (save config path : StateM World _).run world = (.ok (), after)) :
    (load path : StateM World _).run after =
      (.ok (if after.device? path = none then config else {}), after) := by
  obtain ⟨text, ready, rendered, wrote⟩ := exists_of_run_save saved
  have readable := World.read_of_write wrote
  split
  · next noDevice =>
      rw [if_pos noDevice] at readable
      exact run_load readable (parse_render rendered)
  · next device =>
      have empty : "".toUTF8 = ByteArray.empty := rfl
      rw [if_neg device, ← empty] at readable
      exact run_load readable parse_empty

/-! ### What cannot be saved -/

theorem isWritable_of_small
    (small : ∀ timeout, config.lexer.timeout = some timeout → timeout.toNat < 2 ^ 63) :
    config.isWritable = true := by
  rw [isWritable]
  cases isTimeout : config.lexer.timeout with
  | none => rfl
  | some timeout => exact decide_eq_true (small timeout isTimeout)

theorem isWritable_of_large {timeout : UInt64} (isTimeout : config.lexer.timeout = some timeout)
    (large : 2 ^ 63 ≤ timeout.toNat) : config.isWritable = false := by
  rw [isWritable, isTimeout]
  exact decide_eq_false (Nat.not_lt_of_le large)

theorem grown_save (unwritable : config.isWritable = false) (path : String) (world : World) :
    World.Grown world ((save config path : StateM World _).run world).2 := by
  have grown := (made_createAncestors path world).grown
  cases made : (Host.createAncestors path : StateM World _).run world with
  | mk result ready =>
      rw [made] at grown
      cases result with
      | ok _ =>
          rw [run_save_of_not_isWritable unwritable made]
          exact grown
      | error cause =>
          rw [run_save_of_not_made config made]
          exact grown

/-- What is saved is what is loaded, unless the path leads to a device. The null device keeps
nothing, and nothing at all is the default configuration. Saving succeeds where a file can be
written, if a timeout is below `2 ^ 63`.

A timeout of `2 ^ 63` or more is not saved. If the directories above the path are there or can be
made, this is an error of the configuration. Every file can be read as before. -/
theorem load_after_save (config : Config) (path : String) (world : World) :
    let made := (Host.createAncestors path : StateM World _).run world
    let saved := (save config path : StateM World _).run world
    (saved.1 = .ok () → saved.2.device? path = none →
        (load path : StateM World _).run saved.2 = (.ok config, saved.2)) ∧
      (saved.1 = .ok () → saved.2.device? path = some .null →
        (load path : StateM World _).run saved.2 = (.ok {}, saved.2)) ∧
      ((∀ timeout, config.lexer.timeout = some timeout → timeout.toNat < 2 ^ 63) →
        made.1 = .ok () → (FileSystem.openForWriting path false made.2.files).1 = .ok () →
        made.2.device? path ≠ some .full → saved.1 = .ok ()) ∧
      ∀ timeout, config.lexer.timeout = some timeout → 2 ^ 63 ≤ timeout.toNat →
        (made.1 = .ok () → ∃ message, saved.1 = .error (.configurationUnwritable message)) ∧
        (∀ cause, made.1 = .error cause → saved.1 = .error (.io cause)) ∧
        ((∀ parent ∈ (Path.ancestors path).head?, world.kind? parent = some .directory) →
          made = (.ok (), world)) ∧
        ∀ other contents, world.files.read other = .ok contents →
          saved.2.files.read other = .ok contents := by
  intro made saved
  refine ⟨?_, ?_, ?_, ?_⟩
  · intro succeeded noDevice
    have loaded := run_load_of_run_save (eq_mk_of_fst_eq succeeded)
    rwa [if_pos noDevice] at loaded
  · intro succeeded null
    have loaded := run_load_of_run_save (eq_mk_of_fst_eq succeeded)
    rwa [if_neg (by rw [null]; decide)] at loaded
  · intro small succeeded opens takes
    obtain ⟨after, run⟩ := exists_run_save (isWritable_of_small small)
      (eq_mk_of_fst_eq succeeded) opens takes
    exact congrArg Prod.fst run
  · intro timeout isTimeout large
    have unwritable := isWritable_of_large isTimeout large
    refine ⟨?_, ?_, run_createAncestors_of_directory, ?_⟩
    · intro succeeded
      have refused := run_save_of_not_isWritable unwritable (eq_mk_of_fst_eq succeeded)
      exact ⟨_, congrArg Prod.fst refused⟩
    · intro cause failed
      have stopped := run_save_of_not_made config (eq_mk_of_fst_eq failed)
      exact congrArg Prod.fst stopped
    · intro other contents readable
      have grown : World.Grown world saved.2 := grown_save unwritable path world
      exact grown.files.read readable

theorem load_after_save_in_new_directory :
    let config : Config :=
      { verbose := true
        lexer :=
          { keywords := ["a\"b\\c\n", "\x27\x27\x27\"\"\"", "\x01é"]
            timeout := some 9223372036854775807 }
        report := { output := some "x y", append := false, format := "" } }
    let unwritable : Config := { config with lexer := { timeout := some 9223372036854775808 } }
    let files : FileSystem :=
      { entry := fun place => if place = [] then some .directory else none
        workingDirectory := [] }
    let saved := (save config "a/b" : StateM World _).run { files }
    saved.1 = .ok () ∧ (load "a/b" : StateM World _).run saved.2 = (.ok config, saved.2) ∧
      (∃ message, ((save unwritable "a/b" : StateM World _).run saved.2).1 =
        .error (.configurationUnwritable message)) ∧
      ((save unwritable "a/b" : StateM World _).run saved.2).2.files.read "a/b" =
        saved.2.files.read "a/b" := by
  intro config unwritable files saved
  have succeeded : saved.1 = .ok () := by decide +kernel
  have noDevice : saved.2.device? "a/b" = none := by decide +kernel
  have made : ((Host.createAncestors "a/b" : StateM World _).run saved.2).1 = .ok () := by
    decide +kernel
  obtain ⟨_, _, _, wrote⟩ := exists_of_run_save (eq_mk_of_fst_eq succeeded)
  have readable := World.read_of_write wrote
  have large : 2 ^ 63 ≤ (9223372036854775808 : UInt64).toNat := by decide
  obtain ⟨refused, _, _, kept⟩ :=
    (load_after_save unwritable "a/b" saved.2).2.2.2 9223372036854775808 rfl large
  have loaded := (load_after_save config "a/b" { files }).1 succeeded noDevice
  exact ⟨succeeded, loaded, refused made, (kept "a/b" _ readable).trans readable.symm⟩

/-- A configuration that is saved on the null device is not the one that is loaded from there. -/
theorem save_on_null_device_is_lost :
    let config : Config := { verbose := true }
    let files : FileSystem :=
      { entry := fun place =>
          if place = [] ∨ place = ["dev"] then some .directory
          else if place = ["dev", "null"] then some (.file ByteArray.empty) else none
        workingDirectory := [] }
    let device (place : Place) := if place = ["dev", "null"] then some Device.null else none
    let saved := (save config "/dev/null" : StateM World _).run { files, device }
    saved.1 = .ok () ∧ (load "/dev/null" : StateM World _).run saved.2 = (.ok {}, saved.2) ∧
      ({} : Config) ≠ config := by
  intro config files device saved
  have succeeded : saved.1 = .ok () := by decide +kernel
  have onDevice : saved.2.device? "/dev/null" = some .null := by decide +kernel
  have loaded := run_load_of_run_save (eq_mk_of_fst_eq succeeded)
  rw [if_neg (by rw [onDevice]; decide)] at loaded
  exact ⟨succeeded, loaded, by decide⟩

end Tokenizer.Config
