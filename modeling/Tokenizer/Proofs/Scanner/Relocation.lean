import Tokenizer.Proofs.Scanner.Place
import Tokenizer.Proofs.Tokenization.Concatenation
import Tokenizer.Scanner.Session

/-!
Runs that begin in the middle of a text.

States may be run in any order, so a cursor can come to stand anywhere, with any text pending.
From there on a run sees the rest of the text only. It is the run over that rest, further down,
and the pending text goes with its first token or is given up.
-/

namespace Tokenizer

namespace Run

/-- The run so many lines further down. -/
def down (lines : UInt32) (run : Run) : Run :=
  ⟨run.tokens.map (Token.down lines), run.failure.map (LexicalError.down lines)⟩

/-- The run with a text in front of its first token. -/
def prepend (text : String) (run : Run) : Run :=
  { run with tokens := run.tokens.modifyHead (Token.prepend text) }

theorem map_fst_modifyHead (text : String) (marks : List Mark) :
    (marks.modifyHead (Mark.prepend text)).map Prod.fst =
      (marks.map Prod.fst).modifyHead (Token.prepend text) := by
  cases marks <;> rfl

/-- The scan of what is ahead of a cursor, on the line of the cursor, is the run over it,
further down. -/
theorem scans_ahead {cursor : Cursor} {marks : List Mark} {failure : Option LexicalError}
    (scans : Scans cursor.line cursor.rest marks failure) :
    (⟨marks.map Prod.fst, failure⟩ : Run) = (ofString cursor.ahead).down (cursor.line - 1) := by
  rcases exists_scans cursor.ahead with ⟨others, fromFirst, sameTokens⟩
  have moved := fromFirst.down (cursor.line - 1)
  rw [UInt32.add_comm, UInt32.sub_add_cancel, Cursor.toList_ahead] at moved
  obtain ⟨rfl, rfl⟩ := scans.unique moved
  rw [down, Mark.map_fst_down, sameTokens]

theorem drive_start_eq (cursor : Cursor) :
    drive .start cursor =
      ((ofString cursor.ahead).down (cursor.line - 1)).prepend
        (State.skipWhitespace cursor).lexeme := by
  rcases scansBehind_drive_start cursor with ⟨marks, scans, emitted⟩
  rw [← scans_ahead scans, ← Trace.run_drive, Trace.run, prepend, ← Emission.map_fst_mark,
    emitted, map_fst_modifyHead]

end Run

namespace Scanner.Session

/-- States that are run one after another leave the cursor where the run after them begins. -/
theorem exists_performAll_run (cursor : Cursor) (following : Option State) (states : List State) :
    ∃ responses, responses.length = states.length ∧
      (⟨some cursor, following⟩ : Session).performAll (states.map .step ++ [.run]) =
        responses ++ [.ran (Run.drive .start (cursor.through states))] := by
  induction states generalizing cursor following with
  | nil => exact ⟨[], rfl, rfl⟩
  | cons state states inductionHypothesis =>
      rcases inductionHypothesis (state.step cursor).cursor
        (stepWith cursor state).2.following with ⟨responses, sameLength, performed⟩
      refine ⟨.stepped (state.step cursor) :: responses, ?_, ?_⟩
      · rw [List.length_cons, sameLength, List.length_cons]
      · exact congrArg (Response.stepped (state.step cursor) :: ·) performed

/-- After any steps a run goes on as the run over the rest of the text would, as many lines
further down as the cursor has passed. What was pending goes with the first token, which may be
the `finish`, unless there is white space to skip. -/
theorem run_after_steps (source : String) (states : List State) :
    let cursor := (Cursor.ofString source).through states
    let pending := if cursor.ahead.toList.head?.any isWhitespace then "" else cursor.lexeme
    let run := ((Run.ofString cursor.ahead).down (cursor.line - 1)).prepend pending
    cursor.source = source ∧
      ∃ responses, responses.length = states.length ∧
        (ofString source).performAll (states.map .step ++ [.run]) = responses ++ [.ran run] := by
  intro cursor pending run
  refine ⟨Cursor.source_through _ states, ?_⟩
  have relocated : Run.drive .start cursor = run := by
    rw [Run.drive_start_eq, State.lexeme_skipWhitespace, ← Cursor.toList_ahead]
  rw [← relocated]
  exact exists_performAll_run (Cursor.ofString source) (some .start) states

end Scanner.Session

end Tokenizer
