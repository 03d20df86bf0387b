import Tokenizer.Proofs.Scanner.Scans

/-!
Where the tokens of a run stand.

No state leaves its source, so the cursor behind a token cuts that source into what has been
read and what remains. The token is the last part of what has been read, and its line counts
all of it.
-/

namespace Tokenizer

open Grammar

namespace State

theorem source_skipWhitespace (cursor : Cursor) :
    (skipWhitespace cursor).source = cursor.source := by
  unfold skipWhitespace
  split
  · exact Cursor.source_eatWhile isWhitespace cursor
  · rfl

theorem source_closeString (quote : Char) (cursor : Cursor) :
    match closeString quote cursor with
    | .ok next => next.source = cursor.source
    | .error last => last.source = cursor.source := by
  fun_induction closeString quote cursor with
  | case1 => rfl
  | case2 cursor character next bumped => exact Cursor.source_of_bump? bumped
  | case3 cursor character next bumped _ _ after following inductionHypothesis =>
      have sameSource := (Cursor.source_of_bump? following).trans (Cursor.source_of_bump? bumped)
      rwa [sameSource] at inductionHypothesis
  | case4 cursor character next bumped => exact Cursor.source_of_bump? bumped
  | case5 cursor character next bumped _ _ inductionHypothesis =>
      rwa [Cursor.source_of_bump? bumped] at inductionHypothesis

theorem source_afterOperator (cursor : Cursor) :
    (afterOperator cursor).source = cursor.source := by
  unfold afterOperator
  split
  · rfl
  · next first next bumped =>
      have sameSource := Cursor.source_of_bump? bumped
      split
      · exact sameSource
      · next second last following =>
          split
          · exact (Cursor.source_of_bump? following).trans sameSource
          · exact sameSource

theorem source_afterSeparator (cursor : Cursor) :
    (afterSeparator cursor).source = cursor.source := by
  unfold afterSeparator
  split
  · rfl
  · next bumped => exact Cursor.source_of_bump? bumped

theorem source_step (state : State) (cursor : Cursor) :
    (state.step cursor).cursor.source = cursor.source := by
  cases state with
  | start =>
      have skipped := source_skipWhitespace cursor
      simp only [step, stepStart]
      split
      · exact skipped
      · next bumped =>
          split
          · exact skipped
          · exact (Cursor.source_of_bump? bumped).trans skipped
          · exact skipped
  | comment => exact Cursor.source_eatWhile _ cursor
  | identifier => exact Cursor.source_eatWhile _ cursor
  | integer =>
      have digits := Cursor.source_eatWhile Char.isDigit cursor
      simp only [step, stepInteger]
      split
      · next matched => exact (Cursor.source_of_match? matched).trans digits
      · exact digits
  | fraction => exact Cursor.source_eatWhile _ cursor
  | string quote =>
      have sameSource := source_closeString quote cursor
      simp only [step, stepString]
      split
      · next closed =>
          rw [closed] at sameSource
          exact sameSource
      · next unclosed =>
          rw [unclosed] at sameSource
          exact sameSource
  | operator => exact source_afterOperator cursor
  | separator => exact source_afterSeparator cursor

end State

/-- The cursor after some states have been run in turn, whatever each of them named. -/
def Cursor.through (cursor : Cursor) (states : List State) : Cursor :=
  states.foldl (fun cursor state => (state.step cursor).cursor) cursor

theorem Cursor.source_through (cursor : Cursor) (states : List State) :
    (cursor.through states).source = cursor.source := by
  induction states generalizing cursor with
  | nil => rfl
  | cons state states inductionHypothesis =>
      exact (inductionHypothesis _).trans (State.source_step state cursor)

namespace Trace

variable {state : State} {cursor : Cursor} {emission : Emission}

theorem mem_emit {emitted : Option Emission} {trace : Trace} :
    emission ∈ (trace.emit emitted).emissions ↔
      emitted = some emission ∨ emission ∈ trace.emissions := by
  rw [emit, List.mem_append, Option.mem_toList]

theorem source_of_emitted
    (emitted : ((state.step cursor).emitted.map
      fun token => (⟨token, (state.step cursor).cursor⟩ : Emission)) = some emission) :
    emission.cursor.source = cursor.source := by
  rcases Option.map_eq_some_iff.mp emitted with ⟨token, _, rfl⟩
  exact State.source_step state cursor

theorem source_of_mem_drive (membership : emission ∈ (drive state cursor).emissions) :
    emission.cursor.source = cursor.source := by
  fun_induction drive state cursor with
  | case1 state cursor step emitted error outcome =>
      rcases mem_emit.mp membership with now | later
      · exact source_of_emitted now
      · cases later
  | case2 state cursor step emitted outcome =>
      rcases mem_emit.mp membership with now | later
      · exact source_of_emitted now
      · rw [List.mem_singleton.mp later]
        exact State.source_step state cursor
  | case3 state cursor step emitted following outcome inductionHypothesis =>
      rcases mem_emit.mp membership with now | later
      · exact source_of_emitted now
      · exact (inductionHypothesis later).trans (State.source_step state cursor)

end Trace

/-- A scan puts a token behind some text, on the line on which the token ends. Only the
`finish` at the end of the text is no word of its kind. -/
theorem Scans.exists_place {line : UInt32} {text : List Char} {marks : List Mark}
    {failure : Option LexicalError} (scans : Scans line text marks failure) {mark : Mark}
    (membership : mark ∈ marks) :
    ∃ front, text = front ++ mark.1.lexeme.toList ++ mark.2 ∧
      mark.1.line = lineAfter line (front ++ mark.1.lexeme.toList) ∧
      (mark.1.lexeme.toList ∈ mark.1.kind.grammar ∨
        mark.1.kind = .finish ∧ mark.1.lexeme = "" ∧ mark.2 = []) := by
  induction scans with
  | finish =>
      obtain rfl := List.mem_singleton.mp membership
      exact ⟨[], rfl, (lineAfter_nil _).symm, .inr ⟨rfl, rfl, rfl⟩⟩
  | @blank line character rest marks failure _ _ inductionHypothesis =>
      rcases inductionHypothesis membership with ⟨front, parts, sameLine, word⟩
      refine ⟨character :: front, ?_, ?_, word⟩
      · rw [parts, List.cons_append, List.cons_append]
      · rw [sameLine, ← lineAfter_append, List.singleton_append, List.cons_append]
  | stray => cases membership
  | unclosed => cases membership
  | @token line kind lexeme rest marks failure isLongest _ inductionHypothesis =>
      rcases List.mem_cons.mp membership with rfl | inTail
      · refine ⟨[], ?_, ?_, .inl ?_⟩
        · rw [String.toList_ofList, List.nil_append]
        · rw [String.toList_ofList, List.nil_append]
        · rw [String.toList_ofList]
          exact isLongest.membership
      · rcases inductionHypothesis inTail with ⟨front, parts, sameLine, word⟩
        refine ⟨lexeme ++ front, ?_, ?_, word⟩
        · rw [parts, List.append_assoc, List.append_assoc, List.append_assoc]
        · rw [sameLine, ← lineAfter_append, List.append_assoc]

/-- The cursor behind a token stands in the source right after the text of the token. -/
theorem Trace.exists_place {source : String} {emission : Emission}
    (membership : emission ∈ (Trace.ofString source).emissions) :
    ∃ front rest : String, source = front ++ emission.token.lexeme ++ rest ∧
      emission.cursor.source = source ∧
      emission.cursor.position.offset.byteIdx =
        (front ++ emission.token.lexeme).utf8ByteSize ∧
      emission.token.line = lineAfter 1 (front ++ emission.token.lexeme).toList ∧
      (emission.token.lexeme.toList ∈ emission.token.kind.grammar ∨
        emission.token.kind = .finish ∧ emission.token.lexeme = "" ∧ rest = "") := by
  have isMark : emission.mark ∈ (Trace.ofString source).emissions.map Emission.mark :=
    List.mem_map_of_mem membership
  rcases (scansFrom_ofString source).exists_place isMark with ⟨front, parts, sameLine, word⟩
  have sameSource : emission.cursor.source = source := Trace.source_of_mem_drive membership
  refine ⟨String.ofList front, String.ofList emission.cursor.rest, ?_, sameSource, ?_, ?_, ?_⟩
  · apply String.toList_inj.mp
    rw [parts]
    simp [Emission.mark]
  · have read := Cursor.offset_of_rest ((congrArg String.toList sameSource).trans parts)
    rw [read, String.ofList_append, String.ofList_toList]
    rfl
  · rw [String.toList_append, String.toList_ofList]
    exact sameLine
  · refine word.imp_right ?_
    rintro ⟨isFinish, empty, ended⟩
    refine ⟨isFinish, empty, ?_⟩
    rw [show emission.cursor.rest = [] from ended, String.ofList_nil]

end Tokenizer
