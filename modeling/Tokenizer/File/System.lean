import Tokenizer.File.Path

/-!
A file system as a value: what stands at each place.

A place is the list of names that lead to it from the root. There are files and
directories, and no links, so every place has one name.
-/

namespace Tokenizer

/-- What stands at a place. -/
inductive FileEntry where
  | file (contents : ByteArray)
  | directory

/-- The names from the root to a place. -/
abbrev Place := List String

/-- The files and directories, and the directory where relative paths begin. -/
structure FileSystem where
  entry : Place → Option FileEntry
  workingDirectory : Place

namespace FileSystem

/-- Put something at a place. -/
def put (place : Place) (entry : FileEntry) (files : FileSystem) : FileSystem :=
  { files with entry := fun other => if other = place then some entry else files.entry other }

/-- Take away a place and all below it. -/
def removeAll (place : Place) (files : FileSystem) : FileSystem :=
  { files with
    entry := fun other => if place.isPrefixOf other then none else files.entry other }

/-- The place one step on from a directory. -/
def advance (place : Place) (step : String) : Place :=
  if step == "." then place
  else if step == ".." then place.dropLast
  else place ++ [step]

/-- Take steps from a place. Only from a directory can a step be taken, even one
that stays there. -/
def follow (files : FileSystem) : Place → List String → Except SystemError Place
  | place, [] => .ok place
  | place, step :: rest =>
      match files.entry place with
      | none => .error .notFound
      | some (.file _) => .error .notDirectory
      | some .directory =>
          if Path.nameLimit < step.utf8ByteSize then .error .nameTooLong
          else follow files (advance place step) rest

/-- Take steps from where a path begins. -/
def walk (files : FileSystem) (path : String) (steps : List String) :
    Except SystemError Place :=
  match Path.problem? path with
  | some problem => .error problem
  | none => files.follow (if Path.isAbsolute path then [] else files.workingDirectory) steps

/-- The place that a path leads to. There need not be anything. -/
def locate (files : FileSystem) (path : String) : Except SystemError Place :=
  files.walk path (Path.steps path)

/-- What stands at the end of a path. -/
def lookUp (files : FileSystem) (path : String) : Except SystemError FileEntry :=
  match files.locate path with
  | .error error => .error error
  | .ok place =>
      match files.entry place with
      | none => .error .notFound
      | some .directory => .ok .directory
      | some (.file contents) =>
          if Path.endsInSlash path then .error .notDirectory else .ok (.file contents)

/-- The contents of a file. -/
def read (files : FileSystem) (path : String) : Except SystemError ByteArray :=
  match files.lookUp path with
  | .error error => .error error
  | .ok .directory => .error .isDirectory
  | .ok (.file contents) => .ok contents

/-- The file that a path leads to when it is opened for writing, with its
contents; a file that is missing is new and empty. A slash at the end asks for
a directory, whatever the last step is. -/
def target (files : FileSystem) (path : String) : Except SystemError (Place × ByteArray) :=
  if Path.endsInSlash path then
    match files.walk path ((Path.steps path).dropLast ++ ["."]) with
    | .error error => .error error
    | .ok _ => .error .isDirectory
  else
    match files.locate path with
    | .error error => .error error
    | .ok place =>
        match files.entry place with
        | none => .ok (place, ByteArray.empty)
        | some .directory => .error .isDirectory
        | some (.file contents) => .ok (place, contents)

/-- Open a file for writing, making it if it is missing. Its contents stay if
`append` holds and are dropped otherwise. -/
def openForWriting (path : String) (append : Bool) (files : FileSystem) :
    Except SystemError Unit × FileSystem :=
  match files.target path with
  | .error error => (.error error, files)
  | .ok (place, contents) =>
      (.ok (), files.put place (.file (if append then contents else ByteArray.empty)))

/-- Add to the end of a file. -/
def append (path : String) (bytes : ByteArray) (files : FileSystem) :
    Except SystemError Unit × FileSystem :=
  match files.target path with
  | .error error => (.error error, files)
  | .ok (place, contents) => (.ok (), files.put place (.file (contents ++ bytes)))

/-- Make one directory. -/
def makeDirectory (path : String) (files : FileSystem) : Except SystemError Unit × FileSystem :=
  match files.locate path with
  | .error error => (.error error, files)
  | .ok place =>
      match files.entry place with
      | some _ => (.error .alreadyExists, files)
      | none => (.ok (), files.put place .directory)

/-- Take away what a path leads to. -/
def remove (path : String) (files : FileSystem) : Except SystemError Unit × FileSystem :=
  match files.locate path with
  | .error error => (.error error, files)
  | .ok place =>
      match files.entry place with
      | none => (.error .notFound, files)
      | some _ => (.ok (), files.removeAll place)

end FileSystem

end Tokenizer
