import Tokenizer.Command.Source
import Tokenizer.Pipeline

/-!
The command that tells which sources can be scanned.
-/

namespace Tokenizer

/-- How many files passed and how many were rejected. -/
structure CheckSummary where
  passed : Nat
  failed : Nat
  deriving DecidableEq, Repr

/-- The line for a file that passed. -/
def passedLine (verbose : Bool) (path : String) (tokens : Nat) : String :=
  if verbose then path ++ ": ok (" ++ Nat.repr tokens ++ " tokens)" else path ++ ": ok"

/-- The line for a file that was rejected. -/
def rejectedLine (path : String) (error : Error) : String :=
  path ++ ": " ++ error.message

variable {m : Type → Type} [Monad m] [Host m]

/-- The number of tokens in a file. -/
def countTokens (schedule : List Turn) (path : String) : m (Except Error Nat) := do
  match ← readSource path with
  | .error error => return .error error
  | .ok source =>
      match tokenizeConcurrently schedule source with
      | .error error => return .error (.ofChannel error)
      | .ok tokens => return .ok tokens.length

/-- Check files in turn and print a line for each. -/
def checkAll (schedule : List Turn) (verbose : Bool) : List String → m CheckSummary
  | [] => return ⟨0, 0⟩
  | path :: rest => do
      match ← countTokens schedule path with
      | .ok tokens =>
          Host.printLine (passedLine verbose path tokens)
          let summary ← checkAll schedule verbose rest
          return { summary with passed := summary.passed + 1 }
      | .error error =>
          Host.printErrorLine (rejectedLine path error)
          let summary ← checkAll schedule verbose rest
          return { summary with failed := summary.failed + 1 }

/-- Check files. That any of them was rejected is an error. -/
def check (schedule : List Turn) (verbose : Bool) (inputs : List String) :
    m (Except Error CheckSummary) := do
  if inputs.isEmpty then return .error .noInputs
  else
    let summary ← checkAll schedule verbose inputs
    if summary.failed = 0 then return .ok summary
    else return .error (.filesRejected summary.failed inputs.length)

end Tokenizer
