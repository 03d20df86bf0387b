import Tokenizer.Host

/-!
Sources as commands read them.
-/

namespace Tokenizer

variable {m : Type → Type} [Monad m] [Host m]

/-- The text of a source file. -/
def readSource (path : String) : m (Except Error String) := do
  match ← Host.kind? path with
  | none => return .error (.inputMissing path)
  | some .directory | some .device => return .error (.inputNotFile path)
  | some .file =>
      match ← Host.readText path with
      | .error cause => return .error (.fileOperation path cause)
      | .ok text => return .ok text

end Tokenizer
