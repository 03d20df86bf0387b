import Tokenizer.Proofs.Cursor.Advance
import Tokenizer.Proofs.Scanner.Place

/-!
All that one step can do, from whatever cursor a state is run.

`Takes` has one constructor for each way in which a step can end. What holds of every step is
proved over these, without a look into the states again.
-/

namespace Tokenizer

open Grammar

/-- The step completes a token from the cursor: the text between the start before the step and
the position after it, on the line that is reached. -/
structure Step.Completes (step : Step) (cursor : Cursor) (token : Token) : Prop where
  emitted : step.emitted = some token
  line : token.line = step.cursor.line
  lexeme : token.lexeme.toByteArray =
    cursor.source.toByteArray.extract cursor.start.offset.byteIdx
      step.cursor.position.offset.byteIdx
  start : step.cursor.start.offset.byteIdx = step.cursor.position.offset.byteIdx

theorem Step.completes_complete {cursor last : Cursor} {text : List Char} (kind : Kind)
    (reads : Cursor.Reads cursor text last) (sameSource : last.source = cursor.source) :
    (Step.complete kind last).Completes cursor (last.token kind) where
  emitted := rfl
  line := rfl
  lexeme := reads.lexeme_eq_extract sameSource
  start := rfl

namespace State

/-- What running a state at a cursor may come to. -/
inductive Takes (cursor : Cursor) : State → Step → Prop where
  | complete {state kind text last} : state ≠ .start → Cursor.Reads cursor text last →
      Takes cursor state (.complete kind last)
  | exhausted : (skipWhitespace cursor).rest = [] →
      Takes cursor .start (.silent (skipWhitespace cursor) (.ok .exhausted))
  | stray {character tail} : (skipWhitespace cursor).rest = character :: tail →
      Stray character →
      Takes cursor .start (.silent (skipWhitespace cursor)
        (.error (.unrecognizedCharacter (skipWhitespace cursor).line character)))
  | opened {quote next} : Quote quote → Cursor.Reads (skipWhitespace cursor) [quote] next →
      Takes cursor .start (.silent next (.ok (.next (.string quote))))
  | selected {lead tail state} : (skipWhitespace cursor).rest = lead :: tail →
      ofLead? lead = some state → ¬ Quote lead →
      Takes cursor .start (.silent (skipWhitespace cursor) (.ok (.next state)))
  | point {digits next} : (∀ digit ∈ digits, Digit digit) →
      Cursor.Reads cursor (digits ++ ['.']) next →
      Takes cursor .integer (.silent next (.ok (.next .fraction)))
  | unclosed {quote last} : Cursor.Reads cursor cursor.rest last → last.rest = [] →
      Takes cursor (.string quote) (.silent last (.error (.unterminatedString last.line)))

variable {cursor : Cursor}

theorem exists_reads_afterOperator (cursor : Cursor) :
    ∃ text, Cursor.Reads cursor text (afterOperator cursor) := by
  unfold afterOperator
  split
  · exact ⟨[], .refl cursor⟩
  · next first next bumped =>
      have reads := Cursor.reads_of_bump? bumped
      split
      · exact ⟨_, reads⟩
      · next second last following =>
          split
          · exact ⟨_, reads.trans (Cursor.reads_of_bump? following)⟩
          · exact ⟨_, reads⟩

theorem exists_reads_afterSeparator (cursor : Cursor) :
    ∃ text, Cursor.Reads cursor text (afterSeparator cursor) := by
  unfold afterSeparator
  split
  · exact ⟨[], .refl cursor⟩
  · next bumped => exact ⟨_, Cursor.reads_of_bump? bumped⟩

theorem takes_stepStart (cursor : Cursor) : Takes cursor .start (State.start.step cursor) := by
  cases remains : (skipWhitespace cursor).rest with
  | nil =>
      rw [step_start_of_rest_nil remains]
      exact .exhausted remains
  | cons lead tail =>
      cases selected : ofLead? lead with
      | none =>
          rw [step_start_of_ofLead?_none remains selected]
          have notBlank := not_blank_of_dropWhile ((rest_skipWhitespace cursor).symm.trans remains)
          exact .stray remains ((ofLead?_eq_none_iff notBlank).mp selected)
      | some state =>
          -- Only for a quote the start state takes the character that it has looked at.
          by_cases isQuote : Quote lead
          · rcases step_start_of_quote remains isQuote with ⟨next, opened, stepped⟩
            rw [stepped]
            exact .opened isQuote opened
          · rw [step_start_of_ofLead? remains selected isQuote]
            exact .selected remains selected isQuote

theorem takes_stepInteger (cursor : Cursor) :
    Takes cursor .integer (State.integer.step cursor) := by
  have reads := Cursor.reads_eatWhile Char.isDigit cursor
  simp only [step, stepInteger]
  split
  · next matched =>
      exact .point (digits_takeWhile _) (reads.trans (Cursor.reads_of_match? matched))
  · exact .complete (by simp) reads

theorem takes_stepString (quote : Char) (cursor : Cursor) :
    Takes cursor (.string quote) ((State.string quote).step cursor) := by
  rcases closeString_spec quote cursor with
    ⟨last, body, closed, _, _, reads⟩ | ⟨last, unclosed, _, reads, ended⟩
  · simp only [step, stepString, closed]
    exact .complete (by simp) reads
  · simp only [step, stepString, unclosed]
    exact .unclosed reads ended

theorem takes_step (state : State) (cursor : Cursor) : Takes cursor state (state.step cursor) := by
  cases state with
  | start => exact takes_stepStart cursor
  | comment => exact .complete (by simp) (Cursor.reads_eatWhile _ cursor)
  | identifier => exact .complete (by simp) (Cursor.reads_eatWhile _ cursor)
  | integer => exact takes_stepInteger cursor
  | fraction => exact .complete (by simp) (Cursor.reads_eatWhile _ cursor)
  | string quote => exact takes_stepString quote cursor
  | operator =>
      rcases exists_reads_afterOperator cursor with ⟨text, reads⟩
      exact .complete (by simp) reads
  | separator =>
      rcases exists_reads_afterSeparator cursor with ⟨text, reads⟩
      exact .complete (by simp) reads

theorem advances_skipWhitespace (cursor : Cursor) :
    cursor.Advances (skipWhitespace cursor) := by
  unfold skipWhitespace
  split
  · have reads := Cursor.reads_eatWhile isWhitespace cursor
    exact .trans (.of_reads reads (Cursor.source_eatWhile isWhitespace cursor)) (.resetStart _)
  · exact .refl cursor

theorem advances_step (state : State) (cursor : Cursor) :
    cursor.Advances (state.step cursor).cursor := by
  have sameSource := source_step state cursor
  have skipped := advances_skipWhitespace cursor
  generalize stepped : state.step cursor = step at sameSource ⊢
  have takes := takes_step state cursor
  rw [stepped] at takes
  cases takes with
  | complete _ reads => exact .trans (.of_reads reads sameSource) (.resetStart _)
  | exhausted => exact skipped
  | stray => exact skipped
  | opened _ reads =>
      exact skipped.trans (.of_reads reads (sameSource.trans skipped.source_eq.symm))
  | selected => exact skipped
  | point _ reads => exact .of_reads reads sameSource
  | unclosed reads => exact .of_reads reads sameSource

end State

end Tokenizer
