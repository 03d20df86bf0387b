import Tokenizer.Program

/-!
The program on the machine at hand.
-/

namespace Tokenizer

/-- The cause of a failure that the system reports. -/
def SystemError.ofIO (error : IO.Error) : SystemError :=
  match error with
  | .noFileOrDirectory _ _ _ => .notFound
  | .alreadyExists _ _ _ => .alreadyExists
  | .inappropriateType _ code _ => if code == 20 then .notDirectory else .isDirectory
  | .resourceExhausted _ code text => if code == 28 then .noSpace else .other text
  | .invalidArgument _ code text => if code == 36 then .nameTooLong else .other text
  | error => .other (toString error)

/-- Do something with a path and keep the cause if it fails. -/
def attempt {α : Type} (path : String) (action : IO α) : IO (Except SystemError α) := do
  if let some problem := Path.problem? path then return .error problem
  try
    return .ok (← action)
  catch error =>
    return .error (SystemError.ofIO error)

/-- The contents of a file. A directory can be opened but not read. -/
def readBytes (path : String) : IO (Except SystemError ByteArray) :=
  attempt path do
    let handle ← IO.FS.Handle.mk path .read
    handle.readBinToEnd

instance : Host IO where
  kind? path := do
    match ← attempt path (IO.FS.Handle.mk path .read) with
    | .error (.other _) => return some .file
    | .error _ => return none
    | .ok handle =>
        match ← attempt path (handle.read 1) with
        | .ok _ => return some .file
        | .error _ => return some .directory
  read := readBytes
  openForWriting path append :=
    attempt path do
      let _ ← IO.FS.Handle.mk path (if append then .append else .write)
  append path bytes :=
    attempt path do
      let handle ← IO.FS.Handle.mk path .append
      handle.write bytes
      handle.flush
  makeDirectory path := attempt path (IO.FS.createDir path)
  print bytes := do
    let output ← IO.getStdout
    output.write bytes
    output.flush
  printError bytes := do
    let errors ← IO.getStderr
    errors.write bytes
    errors.flush

/-- What the environment of the process says. -/
def currentEnvironment : IO Environment := do
  return {
    verbose := ← IO.getEnv "RATT_VERBOSE"
    config := ← IO.getEnv "RATT_CONFIG"
    noColor := ← IO.getEnv "RATT_NO_COLOR"
    directories := .ofVariables (← IO.getEnv "HOME") (← IO.getEnv "XDG_CONFIG_HOME") }

end Tokenizer

def main (arguments : List String) : IO UInt32 := do
  Tokenizer.runProgram [] (← Tokenizer.currentEnvironment) arguments
