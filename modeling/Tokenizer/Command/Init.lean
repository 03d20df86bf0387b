import Tokenizer.Config.File

/-!
The command that writes a configuration file with the defaults.
-/

namespace Tokenizer

/-- Where to write, and whether an existing file may be replaced. -/
structure InitRequest where
  directory : Option String := none
  force : Bool := false
  deriving DecidableEq, Repr

/-- The directory that is asked for; the working directory if none is. -/
def InitRequest.target (request : InitRequest) : String :=
  request.directory.getD "."

variable {m : Type → Type} [Monad m] [Host m]

/-- Write the default configuration. The result is the path of the file. -/
def createConfiguration (verbose : Bool) (request : InitRequest) : m (Except Error String) := do
  let path := Path.join request.target configurationName
  if (← Host.kind? request.target).any fun kind => kind != .directory then
    return .error (.targetNotDirectory request.target)
  else if (← Host.kind? path).isSome && !request.force then
    return .error (.configurationExists path)
  else
    match ← ({} : Config).save path with
    | .error error => return .error error
    | .ok () =>
        if verbose then Host.printErrorLine ("Created " ++ path)
        return .ok path

end Tokenizer
