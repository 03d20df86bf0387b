import Tokenizer.Error

/-!
Paths as text: names with slashes between them.
-/

namespace Tokenizer.Path

/-- The pieces of a text between the occurrences of a separator. -/
def splitBy (separator : Char) : List Char → List (List Char)
  | [] => [[]]
  | character :: rest =>
      if character == separator then [] :: splitBy separator rest
      else
        match splitBy separator rest with
        | [] => [[character]]
        | first :: others => (character :: first) :: others

/-- The parts of a path between its slashes. -/
def parts (path : String) : List String :=
  (splitBy '/' path.toList).map String.ofList

/-- Whether a path begins at the root. -/
def isAbsolute (path : String) : Bool :=
  path.toList.head? == some '/'

/-- The steps to be taken along a path. Empty parts are none. -/
def steps (path : String) : List String :=
  (parts path).filter fun part => part != ""

/-- Whether a path ends in a slash, as the path of a directory may. -/
def endsInSlash (path : String) : Bool :=
  path.toList.getLast? == some '/'

/-- The most bytes that a path may have. -/
def lengthLimit : Nat := 4095

/-- The most bytes that a name in a directory may have. -/
def nameLimit : Nat := 255

/-- What is wrong with a path before any step is taken. -/
def problem? (path : String) : Option SystemError :=
  if path == "" then some .notFound
  else if path.toList.contains '\x00' then some .nulInName
  else if lengthLimit < path.utf8ByteSize then some .nameTooLong
  else none

/-- Whether a part of a path leads nowhere else. -/
def isIdle (part : String) : Bool :=
  part == "" || part == "."

/-- The lists that end in a part that leads somewhere, given and returned from
the last part to the first. -/
def fronts : List String → List (List String)
  | [] => []
  | part :: above => if isIdle part then fronts above else (part :: above) :: fronts above

/-- The paths above a path, the nearest first: what stands before each of its
names, but not the root or the place where a relative path begins. -/
def ancestors (path : String) : List String :=
  (fronts (parts path).reverse).tail.map fun front => String.intercalate "/" front.reverse

/-- The path of a name in a directory. -/
def join (directory name : String) : String :=
  if directory == "" || endsInSlash directory then directory ++ name
  else directory ++ "/" ++ name

end Tokenizer.Path
