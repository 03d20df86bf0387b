import Tokenizer.Proofs.Cursor.Text
import Tokenizer.Scanner.Run

/-!
A run with the places at which its tokens were emitted.

`Trace.drive` follows the same states as `Run.drive` and keeps, with each token,
the cursor behind it. Forgetting the cursors gives the run back.
-/

namespace Tokenizer

theorem Run.drive_eq (state : State) (cursor : Cursor) (levels : List Nat) :
    drive state cursor levels =
      emit (state.step cursor).emitted
        (match (state.step cursor).outcome with
        | .error error => ⟨[], some error⟩
        | .ok .exhausted => ⟨closing levels (state.step cursor).cursor, none⟩
        | .ok (.next following) => drive following (state.step cursor).cursor levels) := by
  rw [drive]
  split <;> simp_all

/-- A token and the cursor right after it was emitted. -/
structure Emission where
  token : Token
  cursor : Cursor

structure Trace where
  emissions : List Emission
  failure : Option LexicalError

namespace Trace

def emit (emission : Option Emission) (trace : Trace) : Trace :=
  { trace with emissions := emission.toList ++ trace.emissions }

/-- The trace of the run from a state and a cursor. -/
def drive (state : State) (cursor : Cursor) : Trace :=
  let step := state.step cursor
  let emitted := step.emitted.map fun token => ⟨token, step.cursor⟩
  match _outcome : step.outcome with
  | .error error => emit emitted ⟨[], some error⟩
  | .ok .exhausted => emit emitted ⟨[⟨step.cursor.token .finish, step.cursor⟩], none⟩
  | .ok (.next following) => emit emitted (drive following step.cursor)
termination_by state.measure cursor
decreasing_by exact State.measure_step_lt _outcome

def ofString (source : String) : Trace :=
  drive .start (Cursor.ofString source)

/-- The run, without the places. -/
def run (trace : Trace) : Run :=
  ⟨trace.emissions.map Emission.token, trace.failure⟩

theorem run_emit (emission : Option Emission) (trace : Trace) :
    (trace.emit emission).run = trace.run.emit (emission.map Emission.token) := by
  cases emission <;> rfl

variable {state following : State} {cursor : Cursor}

theorem drive_of_error {error : LexicalError}
    (outcome : (state.step cursor).outcome = .error error) :
    drive state cursor =
      emit ((state.step cursor).emitted.map fun token => ⟨token, (state.step cursor).cursor⟩)
        ⟨[], some error⟩ := by
  rw [drive]
  split <;> simp_all

theorem drive_of_exhausted (outcome : (state.step cursor).outcome = .ok .exhausted) :
    drive state cursor =
      emit ((state.step cursor).emitted.map fun token => ⟨token, (state.step cursor).cursor⟩)
        ⟨[⟨(state.step cursor).cursor.token .finish, (state.step cursor).cursor⟩], none⟩ := by
  rw [drive]
  split <;> simp_all

theorem drive_of_next (outcome : (state.step cursor).outcome = .ok (.next following)) :
    drive state cursor =
      emit ((state.step cursor).emitted.map fun token => ⟨token, (state.step cursor).cursor⟩)
        (drive following (state.step cursor).cursor) := by
  rw [drive]
  split <;> simp_all

theorem run_drive (state : State) (cursor : Cursor) :
    (drive state cursor).run = Run.drive state cursor := by
  fun_induction Run.drive state cursor with
  | case1 state cursor step error outcome =>
      rw [drive_of_error outcome, run_emit, Option.map_map, Function.comp_def, Option.map_id']
      rfl
  | case2 state cursor step outcome =>
      rw [drive_of_exhausted outcome, run_emit, Option.map_map, Function.comp_def, Option.map_id']
      rfl
  | case3 state cursor step following outcome inductionHypothesis =>
      rw [drive_of_next outcome, run_emit, Option.map_map, Function.comp_def, Option.map_id',
        inductionHypothesis]

theorem run_ofString (source : String) : (ofString source).run = Run.ofString source :=
  run_drive _ _

/-! ### Steps that emit nothing, and steps that complete a token -/

variable {next last : Cursor} {kind : Kind}

theorem drive_of_silent_error {error : LexicalError}
    (stepped : state.step cursor = .silent next (.error error)) :
    drive state cursor = ⟨[], some error⟩ := by
  rw [drive_of_error (by rw [stepped, Step.silent]), stepped]
  rfl

theorem drive_of_silent_exhausted (stepped : state.step cursor = .silent next (.ok .exhausted)) :
    drive state cursor = ⟨[⟨next.token .finish, next⟩], none⟩ := by
  rw [drive_of_exhausted (by rw [stepped, Step.silent]), stepped]
  rfl

theorem drive_of_silent_next
    (stepped : state.step cursor = .silent next (.ok (.next following))) :
    drive state cursor = drive following next := by
  have outcome : (state.step cursor).outcome = .ok (.next following) := by
    rw [stepped, Step.silent]
  rw [drive_of_next outcome, stepped]
  rfl

theorem drive_start_of_rest_nil (atEnd : cursor.rest = []) :
    drive .start cursor = ⟨[⟨cursor.token .finish, cursor⟩], none⟩ := by
  apply drive_of_silent_exhausted
  have unskipped : State.skipWhitespace cursor = cursor := by
    simp [State.skipWhitespace, Cursor.peek?_eq_head?_rest, atEnd]
  simp only [State.step, State.stepStart, unskipped, (Cursor.bump?_eq_none_iff cursor).mpr atEnd]

/-- After a token the run goes on from the start state, whether or not anything
remains: at the end of the input the start state only emits `finish`. -/
theorem drive_of_complete (stepped : state.step cursor = .complete kind last) :
    drive state cursor =
      emit (some ⟨last.token kind, last.resetStart⟩) (drive .start last.resetStart) := by
  by_cases atEnd : last.isAtEnd = true
  · rw [drive_of_exhausted (by rw [stepped, Step.complete, if_pos atEnd]), stepped,
      drive_start_of_rest_nil (by rw [Cursor.rest_resetStart, ← Cursor.isAtEnd_iff, atEnd])]
    rfl
  · have outcome : (state.step cursor).outcome = .ok (.next .start) := by
      rw [stepped, Step.complete, if_neg atEnd]
    rw [drive_of_next outcome, stepped]
    rfl

end Trace

end Tokenizer
