import Tokenizer.Command.Check
import Tokenizer.CommandLine

/-!
The whole program: it understands its command line, loads the configuration,
carries out the command and answers with an exit code.
-/

namespace Tokenizer

/-- How the program is used. -/
def usageText : String :=
  "Usage: ratt [-v|--verbose] [-c|--config PATH] [--no-color] COMMAND\n" ++
    "\n" ++
    "Commands:\n" ++
    "  lex FILE [-o|--output PATH] [--truncate] [--summary] [-F|--format FORMAT]\n" ++
    "  check FILE...\n" ++
    "  init [-p|--path DIR] [-f|--force]\n"

/-- The line that names a version. -/
def versionLine (level : Option CommandName) : String :=
  let name := match level with
    | none => programName
    | some command => programName ++ "-" ++ command.text
  name ++ " " ++ programVersion

variable {m : Type → Type} [Monad m] [Host m]

/-- The configuration at a path, or the one that is found. -/
def loadConfiguration (directories : Config.Directories) :
    Option String → m (Except Error Config)
  | some path => Config.load path
  | none => Config.search directories

/-- Carry out a command; its result is of no interest but for errors. -/
def carryOut (schedule : List Turn) (verbose : Bool) (config : Config) :
    Command → m (Except Error Unit)
  | .lex request => do return (← lex schedule request config).map fun _ => ()
  | .check inputs => do return (← check schedule verbose inputs).map fun _ => ()
  | .init request => do return (← createConfiguration verbose request).map fun _ => ()

/-- Load the configuration and carry out the command. -/
def invoke (schedule : List Turn) (directories : Config.Directories) (invocation : Invocation) :
    m (Except Error Unit) := do
  match ← loadConfiguration directories invocation.config with
  | .error error => return .error error
  | .ok config =>
      carryOut schedule (invocation.verbose || config.verbose) config invocation.command

/-- Run the program. The exit code is 1 if the command failed and 2 if the
command line was not understood. -/
def runProgram (schedule : List Turn) (environment : Environment) (arguments : List String) :
    m UInt32 := do
  match parseCommandLine environment arguments with
  | .error .usage =>
      Host.printError usageText.toUTF8
      return 2
  | .error .help =>
      Host.print usageText.toUTF8
      return 0
  | .error (.version level) =>
      Host.printLine (versionLine level)
      return 0
  | .ok invocation =>
      match ← invoke schedule environment.directories invocation with
      | .ok () => return 0
      | .error error =>
          Host.printErrorLine ("error: " ++ error.message)
          return 1

end Tokenizer
