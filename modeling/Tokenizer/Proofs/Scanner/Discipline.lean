import Tokenizer.Proofs.Scanner.Step
import Tokenizer.Scanner.Session

/-!
What can be relied on when states are run in any order.

A state may be entered where its characters are missing, and a step may fail and be followed by
others. Still the scanner only moves forward, and each token is the part of the source that has
been passed since the token before it. So the tokens of all steps lie side by side in the source.
-/

namespace Tokenizer

open Grammar

structure Move where
  origin : Cursor
  state : State

/-- A token and the part of the source that it takes up, in bytes. -/
structure Slice where
  token : Token
  first : Nat
  last : Nat

namespace Move

def step (move : Move) : Step :=
  move.state.step move.origin

/-- The token of a move, from where the token in progress began to where the move ends. -/
def slice? (move : Move) : Option Slice :=
  move.step.emitted.map fun token =>
    ⟨token, move.origin.start.offset.byteIdx, move.step.cursor.position.offset.byteIdx⟩

/-- A move consumes nothing but white space and stops at a character with which no token
begins. There it stays, however often the start state is run again. -/
structure Strays (move : Move) (error : LexicalError) : Prop where
  isStart : move.state = .start
  blank : ∃ gap, move.origin.rest = gap ++ move.step.cursor.rest ∧
    ∀ character ∈ gap, Blank character
  stray : ∃ character tail, move.step.cursor.rest = character :: tail ∧ Stray character ∧
    error = .unrecognizedCharacter move.step.cursor.line character
  again : State.start.step move.step.cursor = move.step

/-- A move consumes the rest of the source in search of a quote. -/
structure RunsOut (move : Move) (error : LexicalError) : Prop where
  isString : ∃ quote, move.state = .string quote
  atEnd : move.step.cursor.isAtEnd = true
  unterminated : error = .unterminatedString move.step.cursor.line

/-- What holds of every move. -/
structure Disciplined (move : Move) : Prop where
  advances : move.origin.Advances move.step.cursor
  completes : ∀ token, move.step.emitted = some token → move.step.Completes move.origin token
  exhausted : move.step.outcome = .ok .exhausted → move.step.cursor.isAtEnd = true
  start : move.step.outcome = .ok (.next .start) → move.step.cursor.isAtEnd = false
  fraction : move.step.outcome = .ok (.next .fraction) →
    move.state = .integer ∧ ∃ read, move.origin.rest = read ++ '.' :: move.step.cursor.rest
  fails : ∀ error, move.step.outcome = .error error →
    move.step.emitted = none ∧ (move.Strays error ∨ move.RunsOut error)

variable {move : Move} {cursor last : Cursor}

theorem advances (move : Move) : move.origin.Advances move.step.cursor :=
  State.advances_step move.state move.origin

theorem disciplined_of_complete {kind : Kind} {text : List Char}
    (stepped : move.step = .complete kind last) (reads : Cursor.Reads move.origin text last) :
    move.Disciplined := by
  have advances := move.advances
  have sameSource : last.source = move.origin.source := by
    rw [stepped] at advances
    exact advances.source_eq
  have outcome : move.step.outcome = .ok (if last.isAtEnd then .exhausted else .next .start) := by
    rw [stepped, Step.complete]
  have landed : move.step.cursor.isAtEnd = last.isAtEnd := by
    rw [stepped]
    rfl
  constructor
  case advances => exact advances
  case completes =>
    intro token emitted
    rw [stepped] at emitted ⊢
    cases emitted
    exact Step.completes_complete kind reads sameSource
  all_goals
    rw [outcome]
    cases atEnd : last.isAtEnd <;> simp [landed, atEnd]

theorem disciplined_of_next {transition : Transition}
    (stepped : move.step = .silent last (.ok transition))
    (exhausted : transition = .exhausted → last.isAtEnd = true)
    (notStart : transition ≠ .next .start)
    (fraction : transition = .next .fraction →
      move.state = .integer ∧ ∃ read, move.origin.rest = read ++ '.' :: last.rest) :
    move.Disciplined := by
  have advances := move.advances
  constructor
  case advances => exact advances
  all_goals
    rw [stepped]
    simp only [Step.silent]
  case completes =>
    intro token emitted
    cases emitted
  case exhausted =>
    intro outcome
    cases outcome
    exact exhausted rfl
  case start =>
    intro outcome
    cases outcome
    exact absurd rfl notStart
  case fraction =>
    intro outcome
    cases outcome
    exact fraction rfl
  case fails =>
    intro error outcome
    cases outcome

theorem disciplined_of_error {error : LexicalError}
    (stepped : move.step = .silent last (.error error))
    (fails : move.Strays error ∨ move.RunsOut error) : move.Disciplined := by
  have advances := move.advances
  have emitted : move.step.emitted = none := by
    rw [stepped]
    rfl
  have outcome : move.step.outcome = .error error := by
    rw [stepped]
    rfl
  constructor
  case advances => exact advances
  case fails =>
    intro other failed
    rw [outcome] at failed
    cases failed
    exact ⟨emitted, fails⟩
  all_goals simp [emitted, outcome]

end Move

namespace State

variable {cursor : Cursor}

theorem skipWhitespace_skipWhitespace {character : Char} {tail : List Char}
    (remains : (skipWhitespace cursor).rest = character :: tail) :
    skipWhitespace (skipWhitespace cursor) = skipWhitespace cursor := by
  have notBlank := not_blank_of_dropWhile ((rest_skipWhitespace cursor).symm.trans remains)
  have unskipped : ¬ (skipWhitespace cursor).peek?.any isWhitespace = true := by
    rw [Cursor.peek?_eq_head?_rest, remains, List.head?_cons, Option.any_some, isWhitespace_iff]
    exact notBlank
  conv_lhs => rw [skipWhitespace, if_neg unskipped]

theorem strays {character : Char} {tail : List Char}
    (remains : (skipWhitespace cursor).rest = character :: tail) (stray : Stray character)
    (stepped : (Move.mk cursor .start).step = .silent (skipWhitespace cursor)
      (.error (.unrecognizedCharacter (skipWhitespace cursor).line character))) :
    (Move.mk cursor .start).Strays
      (.unrecognizedCharacter (skipWhitespace cursor).line character) := by
  have landed : (Move.mk cursor .start).step.cursor = skipWhitespace cursor := by
    rw [stepped]
    rfl
  constructor
  · rfl
  · refine ⟨cursor.rest.takeWhile isWhitespace, ?_, blank_takeWhile _⟩
    rw [landed, rest_skipWhitespace, List.takeWhile_append_dropWhile]
  · rw [landed]
    exact ⟨character, tail, remains, stray, rfl⟩
  · -- The white space is behind the cursor now, so that nothing is skipped once more.
    have unselected := (ofLead?_eq_none_iff stray.notBlank).mpr stray
    have still := skipWhitespace_skipWhitespace remains
    have remainsStill : (skipWhitespace (skipWhitespace cursor)).rest = character :: tail := by
      rw [still, remains]
    rw [landed, stepped, step_start_of_ofLead?_none remainsStill unselected, still]

end State

theorem Move.disciplined (move : Move) : move.Disciplined := by
  rcases move with ⟨cursor, state⟩
  have takes : State.Takes cursor state (Move.mk cursor state).step := State.takes_step state cursor
  generalize stepped : (Move.mk cursor state).step = step at takes
  cases takes with
  | complete _ reads => exact disciplined_of_complete stepped reads
  | exhausted ended =>
      apply disciplined_of_next stepped
      · intro _
        exact (Cursor.isAtEnd_iff _).mpr ended
      · simp
      · simp
  | stray remains stray =>
      exact disciplined_of_error stepped (.inl (State.strays remains stray stepped))
  | opened => exact disciplined_of_next stepped (by simp) (by simp) (by simp)
  | @selected lead _ state _ selected =>
      -- The start state names neither itself nor the state of a fraction.
      apply disciplined_of_next stepped
      · simp
      · intro isStart
        cases isStart
        exact State.ofLead?_ne_start lead selected
      · intro isFraction
        cases isFraction
        exact absurd (State.ofLead?_eq_some selected) (by simp)
  | @point digits _ _ reads =>
      apply disciplined_of_next stepped (by simp) (by simp)
      intro _
      refine ⟨rfl, digits, ?_⟩
      rw [reads.rest, List.append_assoc]
      rfl
  | @unclosed quote last reads ended =>
      apply disciplined_of_error stepped
      have landed : (Move.mk cursor (.string quote)).step.cursor = last := by
        rw [stepped]
        rfl
      refine .inr ⟨⟨quote, rfl⟩, ?_, ?_⟩
      · rw [landed, Cursor.isAtEnd_iff]
        exact ended
      · rw [landed]

/-! ### Sequences of moves -/

/-- The moves of states that are run in turn, whatever each of them names or fails with. -/
def Cursor.moves (cursor : Cursor) : List State → List Move
  | [] => []
  | state :: states => ⟨cursor, state⟩ :: (state.step cursor).cursor.moves states

variable {cursor : Cursor} {states : List State}

theorem Cursor.map_state_moves (cursor : Cursor) (states : List State) :
    (cursor.moves states).map Move.state = states := by
  induction states generalizing cursor with
  | nil => rfl
  | cons state states inductionHypothesis =>
      rw [moves, List.map_cons, inductionHypothesis]

theorem Cursor.advances_of_mem_moves {move : Move} (membership : move ∈ cursor.moves states) :
    cursor.Advances move.origin := by
  induction states generalizing cursor with
  | nil => cases membership
  | cons state states inductionHypothesis =>
      rcases List.mem_cons.mp membership with rfl | later
      · exact .refl cursor
      · exact (State.advances_step state cursor).trans (inductionHypothesis later)

theorem Scanner.Session.performAll_step (cursor : Cursor) (following : Option State)
    (states : List State) :
    (⟨some cursor, following⟩ : Session).performAll (states.map .step) =
      (cursor.moves states).map fun move => .stepped move.step := by
  induction states generalizing cursor following with
  | nil => rfl
  | cons state states inductionHypothesis =>
      exact congrArg (Response.stepped (state.step cursor) :: ·) (inductionHypothesis _ _)

namespace Move

variable {move : Move} {slice : Slice}

theorem map_token_slice? (move : Move) : move.slice?.map Slice.token = move.step.emitted := by
  rw [slice?, Option.map_map]
  exact Option.map_id'

/-- The slice of a move ends where the next token begins. -/
theorem start_of_slice? (sliced : move.slice? = some slice) :
    slice.last = move.step.cursor.start.offset.byteIdx := by
  rcases Option.map_eq_some_iff.mp sliced with ⟨token, emitted, rfl⟩
  exact (move.disciplined.completes token emitted).start.symm

theorem bounds_of_slice? (sliced : move.slice? = some slice) :
    slice.first ≤ slice.last ∧ slice.last ≤ move.origin.source.utf8ByteSize ∧
      slice.token.lexeme.toByteArray =
        move.origin.source.toByteArray.extract slice.first slice.last := by
  have advances := move.advances
  have completed := start_of_slice? sliced
  rcases Option.map_eq_some_iff.mp sliced with ⟨token, emitted, rfl⟩
  refine ⟨?_, ?_, (move.disciplined.completes token emitted).lexeme⟩
  · rw [completed]
    exact advances.start
  · have whole := move.step.cursor.offset_position_add
    rw [congrArg String.utf8ByteSize advances.source_eq] at whole
    exact Nat.le_of_add_right_le (Nat.le_of_eq whole)

end Move

theorem Cursor.pairwise_slices (cursor : Cursor) (states : List State) :
    ((cursor.moves states).filterMap Move.slice?).Pairwise
      fun earlier later => earlier.last ≤ later.first := by
  induction states generalizing cursor with
  | nil => exact .nil
  | cons state states inductionHypothesis =>
      rw [moves]
      cases sliced : (Move.mk cursor state).slice? with
      | none =>
          rw [List.filterMap_cons_none sliced]
          exact inductionHypothesis _
      | some slice =>
          rw [List.filterMap_cons_some sliced, List.pairwise_cons]
          refine ⟨?_, inductionHypothesis _⟩
          -- Whatever comes later starts from a cursor to which this one has advanced.
          intro later membership
          rcases List.mem_filterMap.mp membership with ⟨move, inMoves, slicedLater⟩
          rcases Option.map_eq_some_iff.mp slicedLater with ⟨token, _, rfl⟩
          rw [Move.start_of_slice? sliced]
          exact (advances_of_mem_moves inMoves).start

/-- Whatever states are run in turn, every step keeps the discipline, and the tokens of all steps
are slices of the source that lie in it one behind the other. -/
theorem Scanner.steps_keep_discipline (source : String) (states : List State) :
    let moves := (Cursor.ofString source).moves states
    let slices := moves.filterMap Move.slice?
    (Session.ofString source).performAll (states.map .step) =
        moves.map (fun move => .stepped move.step) ∧
    moves.map Move.state = states ∧
    (∀ move ∈ moves, move.origin.source = source ∧ move.Disciplined) ∧
    slices.map Slice.token = moves.filterMap (fun move => move.step.emitted) ∧
    (∀ slice ∈ slices, slice.first ≤ slice.last ∧ slice.last ≤ source.utf8ByteSize ∧
      slice.token.lexeme.toByteArray = source.toByteArray.extract slice.first slice.last) ∧
    slices.Pairwise fun earlier later => earlier.last ≤ later.first := by
  intro moves slices
  have inSource : ∀ move ∈ moves, move.origin.source = source := by
    intro move membership
    exact (Cursor.advances_of_mem_moves membership).source_eq
  refine ⟨Session.performAll_step _ _ states, Cursor.map_state_moves _ states, ?_, ?_, ?_,
    Cursor.pairwise_slices _ states⟩
  · intro move membership
    exact ⟨inSource move membership, move.disciplined⟩
  · rw [List.map_filterMap]
    exact congrArg (List.filterMap · moves) (funext Move.map_token_slice?)
  · intro slice membership
    rcases List.mem_filterMap.mp membership with ⟨move, inMoves, sliced⟩
    rw [← inSource move inMoves]
    exact Move.bounds_of_slice? sliced

end Tokenizer
