import Tokenizer.Scanner.Run

/-!
Single states of the scanner in any order, on one cursor.
-/

namespace Tokenizer.Scanner

/-- What to do with the scanner next. -/
inductive Order where
  /-- Run a state, whether or not it fits what comes next. -/
  | step (state : State)
  /-- Run the state that the last step named. -/
  | follow
  /-- Go on to the end of the run; this uses the scanner up. -/
  | run

/-- What an order led to. -/
inductive Response where
  /-- There was nothing to follow, or the scanner had been used up. -/
  | skipped
  | stepped (step : Step)
  | ran (run : Run)

/-- A scanner in use. -/
structure Session where
  /-- Nothing once a run has used the scanner up. -/
  cursor : Option Cursor
  /-- The state that the last step named. -/
  following : Option State

namespace Session

def ofString (source : String) : Session :=
  ⟨some (Cursor.ofString source), some .start⟩

/-- Run a state on the cursor and remember what it names. -/
def stepWith (cursor : Cursor) (state : State) : Response × Session :=
  let step := state.step cursor
  let following := match step.outcome with
    | .ok (.next state) => some state
    | _ => none
  (.stepped step, ⟨some step.cursor, following⟩)

/-- Carry out one order. -/
def perform (session : Session) (order : Order) : Response × Session :=
  match session.cursor, order with
  | none, _ => (.skipped, session)
  | some cursor, .step state => stepWith cursor state
  | some cursor, .follow =>
      match session.following with
      | none => (.skipped, session)
      | some state => stepWith cursor state
  | some cursor, .run => (.ran (Run.drive .start cursor), ⟨none, none⟩)

/-- Carry out orders in turn. -/
def performAll (session : Session) : List Order → List Response
  | [] => []
  | order :: rest =>
      let responded := session.perform order
      responded.1 :: responded.2.performAll rest

end Session

end Tokenizer.Scanner
