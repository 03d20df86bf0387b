import Tokenizer.File.System

/-!
What commands ask of the machine they run on, and a machine that is a value.
-/

namespace Tokenizer

/-- The kinds of thing that a path can lead to. -/
inductive FileKind where
  | file
  | directory
  | device
  deriving DecidableEq, Repr

/-- A machine with files and two streams of text to write to. -/
class Host (m : Type → Type) where
  /-- What a path leads to, if to anything. -/
  kind? : String → m (Option FileKind)
  /-- The contents of a file. -/
  read : String → m (Except SystemError ByteArray)
  /-- Open a file for writing, making it if it is missing; unless its contents
  are to stay, they are dropped. -/
  openForWriting : String → Bool → m (Except SystemError Unit)
  /-- Add to the end of a file. -/
  append : String → ByteArray → m (Except SystemError Unit)
  /-- Make one directory. -/
  makeDirectory : String → m (Except SystemError Unit)
  print : ByteArray → m Unit
  printError : ByteArray → m Unit

/-- Things that stand among the files but keep nothing. -/
inductive Device where
  /-- Takes everything. -/
  | null
  /-- Takes nothing. -/
  | full
  /-- The stream for output. -/
  | output
  /-- The stream for errors. -/
  | errors
  deriving DecidableEq, Repr

/-- The state of a machine: its files and what has been printed. Some files may
be devices; these stay empty. -/
structure World where
  files : FileSystem
  device : Place → Option Device := fun _ => none
  output : ByteArray := ByteArray.empty
  errors : ByteArray := ByteArray.empty

namespace World

/-- The device that a path leads to, if it leads to one. -/
def device? (world : World) (path : String) : Option Device :=
  match world.files.locate path with
  | .ok place => world.device place
  | .error _ => none

/-- The kind of what a path leads to. -/
def kind? (world : World) (path : String) : Option FileKind :=
  match world.files.lookUp path with
  | .ok .directory => some .directory
  | .ok (.file _) => some (if (world.device? path).isSome then .device else .file)
  | .error _ => none

/-- Change the files. -/
def change {α : Type} (action : FileSystem → α × FileSystem) (world : World) : α × World :=
  let changed := action world.files
  (changed.1, { world with files := changed.2 })

def print (bytes : ByteArray) (world : World) : World :=
  { world with output := world.output ++ bytes }

def printError (bytes : ByteArray) (world : World) : World :=
  { world with errors := world.errors ++ bytes }

/-- Add to the end of a file, or hand over to a device. -/
def append (path : String) (bytes : ByteArray) (world : World) :
    Except SystemError Unit × World :=
  match world.device? path with
  | none => world.change (FileSystem.append path bytes)
  | some .null => (.ok (), world)
  | some .full => (if bytes.isEmpty then .ok () else .error .noSpace, world)
  | some .output => (.ok (), world.print bytes)
  | some .errors => (.ok (), world.printError bytes)

end World

/-- A machine as a value that is changed. -/
instance : Host (StateM World) where
  kind? path := fun world => (world.kind? path, world)
  read path := fun world => (world.files.read path, world)
  openForWriting path append := World.change (FileSystem.openForWriting path append)
  append := World.append
  makeDirectory path := World.change (FileSystem.makeDirectory path)
  print bytes := fun world => ((), world.print bytes)
  printError bytes := fun world => ((), world.printError bytes)

namespace Host

variable {m : Type → Type} [Monad m] [Host m]

/-- The text in a file. -/
def readText (path : String) : m (Except SystemError String) := do
  match ← Host.read path with
  | .error cause => return .error cause
  | .ok bytes =>
      match String.fromUTF8? bytes with
      | some text => return .ok text
      | none => return .error .invalidText

/-- Give a file new contents, making it if it is missing. -/
def write (path : String) (bytes : ByteArray) : m (Except SystemError Unit) := do
  match ← Host.openForWriting path false with
  | .error cause => return .error cause
  | .ok () => Host.append path bytes

/-- Make one directory, unless it is there. -/
def ensureDirectory (path : String) : m (Except SystemError Unit) := do
  match ← Host.makeDirectory path with
  | .ok () => return .ok ()
  | .error cause =>
      if (← Host.kind? path) = some .directory then return .ok () else return .error cause

/-- Make the first of some directories, each of which lies in the next one, and
those that are missing for it. -/
def ensureDirectories : List String → m (Except SystemError Unit)
  | [] => return .ok ()
  | path :: above => do
      match ← ensureDirectory path with
      | .error .notFound =>
          match ← ensureDirectories above with
          | .ok () => ensureDirectory path
          | .error cause => return .error cause
      | ensured => return ensured

/-- Make a directory and those above it that are missing. -/
def createDirectories (path : String) : m (Except SystemError Unit) :=
  if path == "" then return .ok () else ensureDirectories (path :: Path.ancestors path)

/-- Make the directories above a path that are missing. -/
def createAncestors (path : String) : m (Except SystemError Unit) :=
  ensureDirectories (Path.ancestors path)

/-- Print a line of text. -/
def printLine (text : String) : m Unit :=
  Host.print (text ++ "\n").toUTF8

/-- Print a line of text on the stream for errors. -/
def printErrorLine (text : String) : m Unit :=
  Host.printError (text ++ "\n").toUTF8

end Host

end Tokenizer
