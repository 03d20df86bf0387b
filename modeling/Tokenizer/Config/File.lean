import Tokenizer.Config
import Tokenizer.Host

/-!
Configuration files: loading, saving, and where one is looked for.
-/

namespace Tokenizer.Config

variable {m : Type → Type} [Monad m] [Host m]

/-- The configuration in a file. -/
def load (path : String) : m (Except Error Config) := do
  match ← Host.kind? path with
  | none => return .error (.configurationMissing path)
  | some _ =>
      match ← Host.readText path with
      | .error cause => return .error (.io cause)
      | .ok text =>
          match parse text with
          | .ok config => return .ok config
          | .error problem => return .error (.configurationMalformed problem.message)

/-- Save a configuration in a file, making the directories above it. A
configuration that cannot be written down leaves the file as it is. -/
def save (config : Config) (path : String) : m (Except Error Unit) := do
  match ← Host.createAncestors path with
  | .error cause => return .error (.io cause)
  | .ok () =>
      match config.render with
      | .error problem => return .error (.configurationUnwritable problem.message)
      | .ok text =>
          match ← Host.write path text.toUTF8 with
          | .error cause => return .error (.io cause)
          | .ok () => return .ok ()

/-- The directories of a user in which a configuration may stand. -/
structure Directories where
  home : Option String := none
  configuration : Option String := none

/-- The directories that the environment names. The home directory must not be
empty and the directory for configurations has to be an absolute path; without
one it lies in the home directory. -/
def Directories.ofVariables (home configuration : Option String) : Directories :=
  let home := home.filter fun directory => directory != ""
  { home
    configuration :=
      (configuration.filter Path.isAbsolute).or
        (home.map fun directory => Path.join directory ".config") }

/-- Where a configuration is looked for: in the working directory, below the
home directory, and in the user's directory for configurations. -/
def candidates (directories : Directories) : List String :=
  let below (directory : String) := Path.join (Path.join directory "ratt") configurationName
  configurationName ::
    (directories.home.map fun home => below (Path.join home ".config")).toList ++
    (directories.configuration.map below).toList

/-- The first path that leads anywhere. -/
def firstExisting? : List String → m (Option String)
  | [] => return none
  | path :: rest => do
      match ← Host.kind? path with
      | some _ => return some path
      | none => firstExisting? rest

/-- The configuration that is found first, or the default one. -/
def search (directories : Directories) : m (Except Error Config) := do
  match ← firstExisting? (candidates directories) with
  | some path => load path
  | none => return .ok {}

end Tokenizer.Config
