import Tokenizer.Proofs.Scanner.Step

/-!
Levels of indentation.

At the end of the input a run closes one of the levels that are open. No state opens one, so
nothing but the margin is open in a run over a source, and there is nothing to be closed.
-/

namespace Tokenizer

/-- No state emits a token that belongs to the end of a run. -/
theorem State.kind_of_emitted {state : State} {cursor : Cursor} {token : Token}
    (emitted : (state.step cursor).emitted = some token) :
    token.kind ≠ .dedent ∧ token.kind ≠ .finish := by
  have completed {kind : Kind} {last : Cursor} (proper : kind ≠ .dedent ∧ kind ≠ .finish)
      (emitted : (Step.complete kind last).emitted = some token) :
      token.kind ≠ .dedent ∧ token.kind ≠ .finish := by
    cases emitted
    exact proper
  cases state with
  | start =>
      have takes := takes_stepStart cursor
      generalize State.start.step cursor = step at emitted takes
      cases takes with
      | complete notStart => exact absurd rfl notStart
      | _ => cases emitted
  | integer =>
      simp only [step, stepInteger] at emitted
      split at emitted
      · cases emitted
      · exact completed (by decide) emitted
  | string quote =>
      simp only [step, stepString] at emitted
      split at emitted
      · exact completed (by decide) emitted
      · cases emitted
  | _ => exact completed (by decide) emitted

namespace Run

/-- The open levels make a difference only to what a run that is not stopped ends with. -/
theorem drive_levels (state : State) (cursor : Cursor) :
    ∃ body : List Token, (∀ token ∈ body, token.kind ≠ .dedent ∧ token.kind ≠ .finish) ∧
      ((∃ error, ∀ levels, drive state cursor levels = ⟨body, some error⟩) ∨
        ∃ last, ∀ levels, drive state cursor levels = ⟨body ++ closing levels last, none⟩) := by
  have proper : ∀ state cursor, ∀ token ∈ (State.step state cursor).emitted.toList,
      token.kind ≠ .dedent ∧ token.kind ≠ .finish := by
    intro state cursor token membership
    exact State.kind_of_emitted (Option.mem_toList.mp membership)
  fun_induction drive state cursor with
  | case1 state cursor step error outcome =>
      refine ⟨step.emitted.toList, proper state cursor, .inl ⟨error, fun levels => ?_⟩⟩
      rw [drive_eq, outcome, emit, List.append_nil]
  | case2 state cursor step outcome =>
      refine ⟨step.emitted.toList, proper state cursor, .inr ⟨step.cursor, fun levels => ?_⟩⟩
      rw [drive_eq, outcome, emit]
  | case3 state cursor step following outcome inductionHypothesis =>
      obtain ⟨body, bodyProper, goesOn⟩ := inductionHypothesis
      refine ⟨step.emitted.toList ++ body,
        List.forall_mem_append.mpr ⟨proper state cursor, bodyProper⟩, ?_⟩
      rcases goesOn with ⟨error, stopped⟩ | ⟨last, ended⟩
      · refine .inl ⟨error, fun levels => ?_⟩
        rw [drive_eq, outcome]
        exact congrArg (emit step.emitted) (stopped levels)
      · refine .inr ⟨last, fun levels => ?_⟩
        rw [drive_eq, outcome, List.append_assoc]
        exact congrArg (emit step.emitted) (ended levels)

theorem countP_dedent_closing (levels : List Nat) (cursor : Cursor) :
    (closing levels cursor).countP (fun token => token.kind = .dedent) =
      if levels.headD 0 = 0 then 0 else 1 := by
  cases levels with
  | nil => rfl
  | cons level levels => cases level <;> rfl

/-- A run that is not stopped closes one of the levels that are open beyond the margin, and no
other `dedent` is emitted. -/
theorem countP_dedent_drive (state : State) (cursor : Cursor) (levels : List Nat) :
    (drive state cursor levels).tokens.countP (fun token => token.kind = .dedent) =
      if (drive state cursor levels).failure = none ∧ levels.headD 0 ≠ 0 then 1 else 0 := by
  obtain ⟨body, proper, ends⟩ := drive_levels state cursor
  have noneInBody : body.countP (fun token => token.kind = .dedent) = 0 := by
    rw [List.countP_eq_zero]
    intro token membership
    simpa using (proper token membership).1
  rcases ends with ⟨error, stopped⟩ | ⟨last, ended⟩
  · rw [stopped, noneInBody, if_neg (by simp)]
  · rw [ended, List.countP_append, noneInBody, Nat.zero_add, countP_dedent_closing]
    simp

/-- With nothing open but the margin, no `dedent` is emitted. -/
theorem kind_ne_dedent_of_mem_drive {state : State} {cursor : Cursor} {token : Token}
    (membership : token ∈ (drive state cursor).tokens) : token.kind ≠ .dedent := by
  have count := countP_dedent_drive state cursor [0]
  rw [if_neg (by simp), List.countP_eq_zero] at count
  simpa using count token membership

example : (drive .start (Cursor.ofString "x") [4, 2, 0]).tokens.map Token.kind =
    [.identifier, .dedent, .finish] := by
  decide +kernel

end Run

end Tokenizer
