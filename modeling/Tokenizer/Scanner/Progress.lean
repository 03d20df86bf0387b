import Tokenizer.Scanner

/-!
Every state makes progress.

A state that finds the characters it is there for consumes at least one. A
state that does not may leave the cursor where it is, but then it returns to
the start state, which selects a state that does. `State.cost` counts two for
each unit of a size of what remains, and pays for that detour with the rest.
The size may count bytes, as `State.measure` does, or characters.
-/

namespace Tokenizer

namespace Cursor

theorem peek?_eq_map_bump? (cursor : Cursor) :
    cursor.peek? = cursor.bump?.map Prod.fst := by
  unfold peek? bump?
  split <;> rfl

/-- A size of what remains, which every character that is read makes smaller. -/
structure Shrinks (size : Cursor → Nat) : Prop where
  bump : ∀ {cursor next : Cursor} {character : Char},
    cursor.bump? = some (character, next) → size next < size cursor
  resetStart : ∀ cursor : Cursor, size cursor.resetStart = size cursor

theorem shrinks_remaining : Shrinks remaining :=
  ⟨remaining_of_bump?, fun _ => rfl⟩

namespace Shrinks

variable {size : Cursor → Nat}

theorem eatWhile_le (shrinks : Shrinks size) (predicate : Char → Bool) (cursor : Cursor) :
    size (cursor.eatWhile predicate) ≤ size cursor := by
  fun_induction eatWhile predicate cursor with
  | case1 => exact Nat.le_refl _
  | case2 cursor character next bumped _ inductionHypothesis =>
      exact Nat.le_trans inductionHypothesis (Nat.le_of_lt (shrinks.bump bumped))
  | case3 => exact Nat.le_refl _

theorem eatWhile_lt (shrinks : Shrinks size) {predicate : Char → Bool} {cursor : Cursor}
    (satisfied : cursor.peek?.any predicate = true) :
    size (cursor.eatWhile predicate) < size cursor := by
  rw [peek?_eq_map_bump?] at satisfied
  unfold eatWhile
  split
  · next absent => simp [absent] at satisfied
  · next character next bumped =>
      have holds : predicate character = true := by simpa [bumped] using satisfied
      rw [if_pos holds]
      exact Nat.lt_of_le_of_lt (shrinks.eatWhile_le predicate next) (shrinks.bump bumped)

theorem match? (shrinks : Shrinks size) {expected : Char} {cursor next : Cursor}
    (matched : cursor.match? expected = some next) : size next < size cursor := by
  unfold Cursor.match? at matched
  split at matched
  · next character following bumped =>
      split at matched
      · cases matched
        exact shrinks.bump bumped
      · cases matched
  · cases matched

end Shrinks

end Cursor

namespace State

/-- Whether the character that a state is there for comes next. -/
def finds : State → Cursor → Bool
  | .start, _ => false
  | .comment, cursor => cursor.peek?.any fun c => !isLineEnd c
  | .identifier, cursor => cursor.peek?.any isIdentifierContinue
  | .integer, cursor => cursor.peek?.any Char.isDigit
  | .fraction, cursor => cursor.peek?.any Char.isDigit
  | .string _, cursor => cursor.peek?.isSome
  | .operator, cursor => cursor.peek?.isSome
  | .separator, cursor => cursor.peek?.isSome

/-- What a state may still cost beyond two for each byte that remains. -/
def detour (state : State) (cursor : Cursor) : Nat :=
  if state = .start then 1 else if state.finds cursor then 0 else 2

/-- A bound on the states still to be run, for a size of what remains. -/
def cost (size : Cursor → Nat) (state : State) (cursor : Cursor) : Nat :=
  2 * size cursor + state.detour cursor

/-- A bound on the states still to be run. -/
def measure (state : State) (cursor : Cursor) : Nat :=
  2 * cursor.remaining + state.detour cursor

theorem detour_le_two (state : State) (cursor : Cursor) : state.detour cursor ≤ 2 := by
  unfold detour
  split
  · omega
  · split <;> omega

section Sizes

open Cursor (Shrinks)

variable {size : Cursor → Nat}

theorem skipWhitespace_le (shrinks : Shrinks size) (cursor : Cursor) :
    size (skipWhitespace cursor) ≤ size cursor := by
  unfold skipWhitespace
  split
  · rw [shrinks.resetStart]
    exact shrinks.eatWhile_le _ _
  · exact Nat.le_refl _

theorem closeString_lt (shrinks : Shrinks size) {quote : Char} {cursor next : Cursor}
    (closed : closeString quote cursor = .ok next) : size next < size cursor := by
  fun_induction closeString quote cursor with
  | case1 => cases closed
  | case2 => cases closed
  | case3 cursor character following bumped _ _ after escaped inductionHypothesis =>
      exact Nat.lt_trans (inductionHypothesis closed)
        (Nat.lt_trans (shrinks.bump escaped) (shrinks.bump bumped))
  | case4 cursor character following bumped =>
      cases closed
      exact shrinks.bump bumped
  | case5 cursor character following bumped _ _ inductionHypothesis =>
      exact Nat.lt_trans (inductionHypothesis closed) (shrinks.bump bumped)

theorem afterOperator_smaller (shrinks : Shrinks size) (cursor : Cursor) :
    size (afterOperator cursor) ≤ size cursor ∧
      (cursor.peek?.isSome = true → size (afterOperator cursor) < size cursor) := by
  rw [Cursor.peek?_eq_map_bump?]
  unfold afterOperator
  split
  · next absent => simp [absent]
  · next first next bumped =>
      have decrease := shrinks.bump bumped
      split
      · exact ⟨Nat.le_of_lt decrease, fun _ => decrease⟩
      · next second last following =>
          have further := shrinks.bump following
          split <;> constructor <;> omega

theorem afterSeparator_smaller (shrinks : Shrinks size) (cursor : Cursor) :
    size (afterSeparator cursor) ≤ size cursor ∧
      (cursor.peek?.isSome = true → size (afterSeparator cursor) < size cursor) := by
  rw [Cursor.peek?_eq_map_bump?]
  unfold afterSeparator
  split
  · next absent => simp [absent]
  · next character next bumped =>
      have decrease := shrinks.bump bumped
      exact ⟨Nat.le_of_lt decrease, fun _ => decrease⟩

/-- A state that the start state selects finds its character. -/
theorem finds_of_ofLead? {character : Char} {state : State} {cursor next : Cursor}
    (selected : ofLead? character = some state)
    (bumped : cursor.bump? = some (character, next)) : state.finds cursor = true := by
  have peeked : cursor.peek? = some character := by
    simp [Cursor.peek?_eq_map_bump?, bumped]
  unfold ofLead? at selected
  split at selected
  · next isMarker =>
      cases selected
      have equality : character = commentMarker := by simpa using isMarker
      subst equality
      simp only [finds, peeked, Option.any_some]
      decide
  · split at selected
    · next isStart =>
        cases selected
        simp only [isIdentifierStart] at isStart
        simp [finds, peeked, isIdentifierContinue, Char.isAlphanum, isStart]
    · split at selected
      · next isDigit =>
          cases selected
          simp [finds, peeked, isDigit]
      · split at selected
        · cases selected
          simp [finds, peeked]
        · split at selected
          · cases selected
            simp [finds, peeked]
          · split at selected
            · cases selected
              simp [finds, peeked]
            · cases selected

theorem ofLead?_ne_start (character : Char) : ofLead? character ≠ some .start := by
  unfold ofLead?
  repeat' split
  all_goals simp

/-- Returning to the start state after a token is progress. -/
theorem cost_complete_lt (shrinks : Shrinks size) {state following : State} {kind : Kind}
    {cursor last : Cursor} (notStart : state ≠ .start) (le : size last ≤ size cursor)
    (lt : state.finds cursor = true → size last < size cursor)
    (outcome : (Step.complete kind last).outcome = .ok (.next following)) :
    following.cost size (Step.complete kind last).cursor < state.cost size cursor := by
  simp only [Step.complete] at outcome ⊢
  split at outcome
  · cases outcome
  · cases outcome
    simp only [cost, detour, notStart, shrinks.resetStart, if_true, if_false]
    split
    · next found => have := lt found; omega
    · omega

theorem cost_stepStart_lt (shrinks : Shrinks size) {following : State} {cursor : Cursor}
    (outcome : (stepStart cursor).outcome = .ok (.next following)) :
    following.cost size (stepStart cursor).cursor < State.start.cost size cursor := by
  have skipped := skipWhitespace_le shrinks cursor
  unfold stepStart at outcome ⊢
  simp only [cost] at outcome ⊢
  split at outcome
  · simp [Step.silent] at outcome
  · next character next bumped =>
      have decrease := shrinks.bump bumped
      split at outcome
      · simp [Step.silent] at outcome
      · next quote selected =>
          simp only [Step.silent, Except.ok.injEq, Transition.next.injEq] at outcome
          subst outcome
          have bound := detour_le_two (.string quote) next
          have cost : State.start.detour cursor = 1 := rfl
          simp only [Step.silent]
          omega
      · next state _ selected =>
          simp only [Step.silent, Except.ok.injEq, Transition.next.injEq] at outcome
          subst outcome
          have found := finds_of_ofLead? selected bumped
          have notStart : state ≠ .start := fun equality =>
            ofLead?_ne_start character (equality ▸ selected)
          simp only [Step.silent, detour, notStart, found, if_true, if_false]
          omega

theorem cost_stepInteger_lt (shrinks : Shrinks size) {following : State} {cursor : Cursor}
    (outcome : (stepInteger cursor).outcome = .ok (.next following)) :
    following.cost size (stepInteger cursor).cursor < State.integer.cost size cursor := by
  have le := shrinks.eatWhile_le Char.isDigit cursor
  have lt : cursor.peek?.any Char.isDigit = true →
      size (cursor.eatWhile Char.isDigit) < size cursor :=
    shrinks.eatWhile_lt
  unfold stepInteger at outcome ⊢
  simp only at outcome ⊢
  split at outcome
  · next next matched =>
      simp only [Step.silent, Except.ok.injEq, Transition.next.injEq] at outcome
      subst outcome
      have decrease := shrinks.match? matched
      have bound := detour_le_two .fraction next
      have cost : State.integer.detour cursor =
          if cursor.peek?.any Char.isDigit then 0 else 2 := rfl
      simp only [Step.silent, State.cost]
      rw [cost]
      split
      · next found => have := lt found; omega
      · omega
  · exact cost_complete_lt shrinks (by simp) le lt outcome

/-- Whatever a state leads to is strictly nearer to the end. -/
theorem cost_step_lt (shrinks : Shrinks size) {state following : State} {cursor : Cursor}
    (outcome : (state.step cursor).outcome = .ok (.next following)) :
    following.cost size (state.step cursor).cursor < state.cost size cursor := by
  cases state with
  | start => exact cost_stepStart_lt shrinks outcome
  | comment =>
      exact cost_complete_lt shrinks (by simp) (shrinks.eatWhile_le _ _)
        shrinks.eatWhile_lt outcome
  | identifier =>
      exact cost_complete_lt shrinks (by simp) (shrinks.eatWhile_le _ _)
        shrinks.eatWhile_lt outcome
  | integer => exact cost_stepInteger_lt shrinks outcome
  | fraction =>
      exact cost_complete_lt shrinks (by simp) (shrinks.eatWhile_le _ _)
        shrinks.eatWhile_lt outcome
  | string quote =>
      simp only [step, stepString] at outcome ⊢
      split at outcome
      · next next closed =>
          have decrease := closeString_lt shrinks closed
          exact cost_complete_lt shrinks (by simp) (Nat.le_of_lt decrease) (fun _ => decrease)
            outcome
      · simp [Step.silent] at outcome
  | operator =>
      exact cost_complete_lt shrinks (by simp) (afterOperator_smaller shrinks cursor).1
        (afterOperator_smaller shrinks cursor).2 outcome
  | separator =>
      exact cost_complete_lt shrinks (by simp) (afterSeparator_smaller shrinks cursor).1
        (afterSeparator_smaller shrinks cursor).2 outcome

end Sizes

theorem measure_step_lt {state following : State} {cursor : Cursor}
    (outcome : (state.step cursor).outcome = .ok (.next following)) :
    following.measure (state.step cursor).cursor < state.measure cursor :=
  cost_step_lt Cursor.shrinks_remaining outcome

end State

end Tokenizer
