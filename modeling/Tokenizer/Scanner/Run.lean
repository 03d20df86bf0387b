import Tokenizer.Scanner.Progress

/-!
A run of the scanner: from the start state on, each state is followed by the
one it names, until the input is consumed or a state fails.
-/

namespace Tokenizer

/-- What a run leaves behind: the tokens it emitted and, if it stopped early,
the reason. A run that was not stopped ends with a `finish` token. -/
structure Run where
  tokens : List Token
  failure : Option LexicalError
  deriving DecidableEq, Repr

namespace Run

/-- A token emitted before the rest of a run. -/
def emit (token : Option Token) (run : Run) : Run :=
  { run with tokens := token.toList ++ run.tokens }

/-- The tokens that are emitted once the input is consumed. Of the open levels of indentation, the
innermost first, one is closed, with a `dedent` unless it is the margin. -/
def closing (levels : List Nat) (cursor : Cursor) : List Token :=
  match levels with
  | (_ + 1) :: _ => [cursor.token .dedent, cursor.resetStart.token .finish]
  | 0 :: _ | [] => [cursor.token .finish]

/-- The run from a state and a cursor. No state opens a level of indentation, so only the margin
is open unless another level was open before. -/
def drive (state : State) (cursor : Cursor) (levels : List Nat := [0]) : Run :=
  let step := state.step cursor
  match _outcome : step.outcome with
  | .error error => emit step.emitted ⟨[], some error⟩
  | .ok .exhausted => emit step.emitted ⟨closing levels step.cursor, none⟩
  | .ok (.next following) => emit step.emitted (drive following step.cursor levels)
termination_by state.measure cursor
decreasing_by exact State.measure_step_lt _outcome

/-- The run over a whole source. -/
def ofString (source : String) : Run :=
  drive .start (Cursor.ofString source)

/-- The tokens of a run that was not stopped, or else the reason. -/
def result (run : Run) : Except LexicalError (List Token) :=
  match run.failure with
  | none => .ok run.tokens
  | some error => .error error

end Run

/-- The tokens of a source, with a `finish` token at the end. -/
def tokenize (source : String) : Except LexicalError (List Token) :=
  (Run.ofString source).result

end Tokenizer
