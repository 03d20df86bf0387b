import Tokenizer.Proofs.Scanner.Place
import Tokenizer.Proofs.Tokenization.Extension

/-!
How many steps and tokens a run can take.

A state that is entered where its character is missing may consume nothing, and the start state
hands over without consuming. Such a detour is paid for in advance, so that two steps for each
character are enough, and two more for the first detour.
-/

namespace Tokenizer

namespace Cursor

theorem shrinks_rest : Shrinks fun cursor => cursor.rest.length where
  bump bumped := by
    rw [(reads_of_bump? bumped).rest, List.singleton_append, List.length_cons]
    exact Nat.lt_succ_self _
  resetStart cursor := by rw [rest_resetStart]

theorem length_ahead (cursor : Cursor) : cursor.ahead.length = cursor.rest.length := by
  rw [← String.length_toList, toList_ahead]

end Cursor

namespace State

/-- A state that finds its character has something to read. -/
theorem rest_ne_nil_of_finds {state : State} {cursor : Cursor}
    (found : state.finds cursor = true) : cursor.rest ≠ [] := by
  intro ended
  have nothing : cursor.peek? = none := by rw [Cursor.peek?_eq_head?_rest, ended, List.head?_nil]
  cases state <;> simp [finds, nothing] at found

theorem cost_pos (state : State) (cursor : Cursor) :
    0 < state.cost (fun cursor => cursor.rest.length) cursor := by
  rw [cost, detour]
  by_cases isStart : state = .start
  · rw [if_pos isStart]
    omega
  · rw [if_neg isStart]
    by_cases found : state.finds cursor = true
    · have remains := List.length_pos_of_ne_nil (rest_ne_nil_of_finds found)
      omega
    · rw [if_neg found]
      omega

end State

namespace Run

/-- The run from a state and a cursor, if it is over after so many steps. -/
def driveWithin : Nat → State → Cursor → Option Run
  | 0, _, _ => none
  | steps + 1, state, cursor =>
      let step := state.step cursor
      match step.outcome with
      | .error error => some (emit step.emitted ⟨[], some error⟩)
      | .ok .exhausted => some (emit step.emitted ⟨[step.cursor.token .finish], none⟩)
      | .ok (.next following) =>
          (driveWithin steps following step.cursor).map (emit step.emitted)

theorem driveWithin_of_cost_le (state : State) (cursor : Cursor) :
    ∀ steps, state.cost (fun cursor => cursor.rest.length) cursor ≤ steps →
      driveWithin steps state cursor = some (drive state cursor) := by
  have positive := State.cost_pos
  fun_induction drive state cursor with
  | case1 state cursor step error failed =>
      intro steps enough
      obtain ⟨steps, rfl⟩ := Nat.exists_eq_add_one.mpr (Nat.lt_of_lt_of_le (positive _ _) enough)
      simp only [driveWithin, step, failed]
  | case2 state cursor step ended =>
      intro steps enough
      obtain ⟨steps, rfl⟩ := Nat.exists_eq_add_one.mpr (Nat.lt_of_lt_of_le (positive _ _) enough)
      simp only [driveWithin, step, ended]
      rfl
  | case3 state cursor step following continued inductionHypothesis =>
      intro steps enough
      obtain ⟨steps, rfl⟩ := Nat.exists_eq_add_one.mpr (Nat.lt_of_lt_of_le (positive _ _) enough)
      have less := State.cost_step_lt Cursor.shrinks_rest continued
      have further := inductionHypothesis steps
        (Nat.le_of_lt_succ (Nat.lt_of_lt_of_le less enough))
      simp only [driveWithin, step, continued, further, Option.map_some]

/-- Every word takes at least one character of its own. -/
theorem length_filter_le_of_scans {line : UInt32} {text : List Char} {marks : List Mark}
    {failure : Option LexicalError} (scans : Scans line text marks failure) :
    ((marks.map Prod.fst).filter fun token => !token.isFinish).length ≤ text.length := by
  induction scans with
  | finish => exact Nat.le_refl 0
  | blank _ _ inductionHypothesis => exact Nat.le_succ_of_le inductionHypothesis
  | stray => exact Nat.zero_le _
  | unclosed => exact Nat.zero_le _
  | @token line kind lexeme rest marks failure isLongest _ inductionHypothesis =>
      have positive := List.length_pos_of_ne_nil isLongest.nonempty
      rw [List.map_cons, List.length_append]
      rw [List.filter_cons]
      split
      · rw [List.length_cons]
        omega
      · omega

theorem length_words_le (source : String) : (ofString source).words.length ≤ source.length := by
  rcases exists_scans source with ⟨marks, scans, _⟩
  rw [words_of_scans scans, ← String.length_toList]
  exact length_filter_le_of_scans scans

/-- All but the last token of a run are words. -/
theorem length_tokens_le (source : String) :
    (ofString source).tokens.length ≤ (ofString source).words.length + 1 := by
  rcases kinds_ofString source with ⟨body, proper, succeeded, failed⟩
  have allWords : body.filter (fun token => !token.isFinish) = body := by
    apply List.filter_eq_self.mpr
    intro token membership
    simpa [Token.isFinish] using (proper token membership).2
  rw [words]
  cases failure : (ofString source).failure with
  | none =>
      rw [succeeded failure, List.filter_append, allWords, List.length_append, List.length_append]
      exact Nat.add_le_add (Nat.le_add_right _ _) (Nat.le_refl 1)
  | some error =>
      rw [failed (by simp [failure]), allWords]
      exact Nat.le_succ _

/-- From wherever steps have led, and whichever state is entered there, running each state that
the one before it names comes to an end soon. So a run ends on every source, with at most one
token for each character and a `finish`. -/
theorem drive_ends (source : String) (states : List State) :
    let cursor := (Cursor.ofString source).through states
    let remaining := cursor.ahead.length
    cursor.source = source ∧
    (∀ state, driveWithin (2 * remaining + 2) state cursor = some (drive state cursor)) ∧
    driveWithin (2 * remaining + 1) .start cursor = some (drive .start cursor) ∧
    driveWithin (2 * source.length + 1) .start (Cursor.ofString source) =
      some (ofString source) ∧
    (ofString source).words.length ≤ source.length ∧
    (ofString source).tokens.length ≤ (ofString source).words.length + 1 := by
  intro cursor remaining
  have fromStart : ∀ cursor : Cursor,
      driveWithin (2 * cursor.ahead.length + 1) .start cursor = some (drive .start cursor) := by
    intro cursor
    apply driveWithin_of_cost_le
    rw [Cursor.length_ahead]
    exact Nat.le_refl _
  refine ⟨Cursor.source_through _ states, ?_, fromStart cursor, ?_, length_words_le source,
    length_tokens_le source⟩
  · intro state
    apply driveWithin_of_cost_le
    have bound := State.detour_le_two state cursor
    have sameLength : remaining = cursor.rest.length := Cursor.length_ahead cursor
    rw [State.cost]
    omega
  · have whole := fromStart (Cursor.ofString source)
    have sameLength : (Cursor.ofString source).ahead.length = source.length := by
      rw [Cursor.length_ahead, Cursor.rest_ofString, String.length_toList]
    rwa [sameLength] at whole

end Run

end Tokenizer
