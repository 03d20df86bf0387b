import Tokenizer.ChannelError

/-!
Everything that can go wrong with a command, by cause. The wording is in
`Error.message` alone.
-/

namespace Tokenizer

/-- Why an operation on a file failed. -/
inductive SystemError where
  | notFound
  | alreadyExists
  | notDirectory
  | isDirectory
  | nameTooLong
  /-- A path with a NUL character names nothing. -/
  | nulInName
  /-- The contents are not UTF-8. -/
  | invalidText
  /-- What was written did not fit. -/
  | noRoom
  /-- A device has no room left. -/
  | noSpace
  /-- Anything else, in the words of the system. -/
  | other (text : String)
  deriving DecidableEq, Repr

def SystemError.message : SystemError → String
  | .notFound => "No such file or directory (os error 2)"
  | .alreadyExists => "File exists (os error 17)"
  | .notDirectory => "Not a directory (os error 20)"
  | .isDirectory => "Is a directory (os error 21)"
  | .nameTooLong => "File name too long (os error 36)"
  | .nulInName => "file name contained an unexpected NUL byte"
  | .invalidText => "stream did not contain valid UTF-8"
  | .noRoom => "failed to write whole buffer"
  | .noSpace => "No space left on device (os error 28)"
  | .other text => text

/-- Why a command failed. -/
inductive Error where
  | configurationMissing (path : String)
  | configurationMalformed (detail : String)
  /-- The configuration cannot be written down. -/
  | configurationUnwritable (detail : String)
  /-- A source could not be read or a report file not be opened. -/
  | fileOperation (path : String) (cause : SystemError)
  | inputMissing (path : String)
  | inputNotFile (path : String)
  | unknownFormat (name : String)
  | noInputs
  | targetNotDirectory (path : String)
  | configurationExists (path : String)
  /-- Of `total` files `failed` were rejected. -/
  | filesRejected (failed total : Nat)
  | lexical (error : LexicalError)
  | channel (error : ChannelError)
  | io (cause : SystemError)
  /-- Writing failed inside a JSON document. -/
  | document (cause : SystemError)
  deriving DecidableEq, Repr

/-- The families of errors; each has a heading of its own. -/
inductive ErrorFamily where
  | configuration
  | fileOperation
  | validation
  | commandExecution
  | lexical
  | channel
  | io
  | document
  deriving DecidableEq, Repr

/-- What the messages of a family begin with. -/
def ErrorFamily.heading : ErrorFamily → String
  | .configuration => "Configuration error: "
  | .fileOperation => "File operation failed: "
  | .validation => "Validation error: "
  | .commandExecution => "Command execution failed: "
  | .lexical => ""
  | .channel => ""
  | .io => "IO error: "
  | .document => "JSON error: "

namespace Error

def family : Error → ErrorFamily
  | .configurationMissing _ => .configuration
  | .configurationMalformed _ => .configuration
  | .configurationUnwritable _ => .configuration
  | .fileOperation _ _ => .fileOperation
  | .inputMissing _ => .validation
  | .inputNotFile _ => .validation
  | .unknownFormat _ => .validation
  | .noInputs => .validation
  | .targetNotDirectory _ => .validation
  | .configurationExists _ => .validation
  | .filesRejected _ _ => .commandExecution
  | .lexical _ => .lexical
  | .channel _ => .channel
  | .io _ => .io
  | .document _ => .document

/-- The message without its heading. -/
def detail : Error → String
  | .configurationMissing path => "Configuration file not found: " ++ path
  | .configurationMalformed detail => "Failed to parse configuration: " ++ detail
  | .configurationUnwritable detail => "Failed to serialize configuration: " ++ detail
  | .fileOperation path cause => path ++ ": " ++ cause.message
  | .inputMissing path => "Input path does not exist: " ++ path
  | .inputNotFile path => "Input path is not a file: " ++ path
  | .unknownFormat name => "Unknown report format: " ++ name
  | .noInputs => "No input files specified"
  | .targetNotDirectory path => "Target path is not a directory: " ++ path
  | .configurationExists path => "Configuration file already exists (use --force): " ++ path
  | .filesRejected failed total =>
      Nat.repr failed ++ " file(s) failed lexical analysis: " ++ Nat.repr total
  | .lexical error => error.message
  | .channel error => error.message
  | .io cause => cause.message
  | .document cause => cause.message

def message (error : Error) : String :=
  error.family.heading ++ error.detail

/-- An error of the channel as an error of the command. A failed scan is
reported as such. -/
def ofChannel : ChannelError → Error
  | .lexical error => .lexical error
  | error => .channel error

end Error

end Tokenizer
