import Tokenizer.Proofs.Scanner.Discipline
import Tokenizer.Proofs.Scanner.Termination

/-!
What a state can rely on when a run comes to it.

States that are run in any order may be entered where their characters are missing. A run from the
start of a source enters no state so: each state hands over what the next one is there for, either
ahead of the cursor or already pending. So every token of a run has some text.
-/

namespace Tokenizer

open Grammar

/-- Nothing is pending at the cursor, and one of the characters comes next. -/
structure Cursor.Expects (cursor : Cursor) (characters : Char → Prop) : Prop where
  clean : cursor.start = cursor.position
  next : ∃ character, cursor.peek? = some character ∧ characters character

/-- What is pending and what comes next where a run enters a state. -/
def State.Fits : State → Cursor → Prop
  | .start, cursor => cursor.start = cursor.position
  | .comment, cursor => cursor.Expects (· = '#')
  | .identifier, cursor => cursor.Expects Letter
  | .integer, cursor => cursor.Expects Digit
  | .separator, cursor => cursor.Expects Separator
  | .operator, cursor => cursor.Expects Operator
  | .string quote, cursor => Quote quote ∧ cursor.lexeme = String.singleton quote
  | .fraction, cursor => ∃ digits, digits ≠ [] ∧ (∀ digit ∈ digits, Digit digit) ∧
      cursor.lexeme = String.ofList (digits ++ ['.'])

namespace Cursor

variable {cursor : Cursor}

theorem pending_of_clean (clean : cursor.start = cursor.position) : cursor.pending = [] := by
  have unmoved : cursor.resetStart = cursor := by
    obtain ⟨source, start, position, le, line⟩ := cursor
    obtain rfl : start = position := clean
    rfl
  rw [← unmoved, pending_resetStart]

theorem clean_skipWhitespace (clean : cursor.start = cursor.position) :
    (State.skipWhitespace cursor).start = (State.skipWhitespace cursor).position := by
  by_cases blank : cursor.peek?.any isWhitespace = true
  · have skipped : State.skipWhitespace cursor = (cursor.eatWhile isWhitespace).resetStart :=
      if_pos blank
    rw [skipped]
    rfl
  · have unskipped : State.skipWhitespace cursor = cursor := if_neg blank
    rw [unskipped]
    exact clean

/-- At the end of the input no byte of the source remains. -/
theorem offset_of_rest_nil (ended : cursor.rest = []) :
    cursor.position.offset.byteIdx = cursor.source.utf8ByteSize := by
  have whole := cursor.offset_position_add
  rw [ended] at whole
  exact whole

end Cursor

namespace State

variable {state following : State} {cursor : Cursor} {token : Token}

/-! ### One state hands over to the next -/

/-- The state that a character selects fits a cursor in front of it. -/
theorem fits_of_ofLead? {lead : Char} {tail : List Char}
    (clean : cursor.start = cursor.position) (remains : cursor.rest = lead :: tail)
    (selected : ofLead? lead = some state) (notQuote : ¬ Quote lead) : state.Fits cursor := by
  have peeked : cursor.peek? = some lead := by rw [Cursor.peek?_eq_head?_rest, remains]; rfl
  have expects {characters : Char → Prop} (holds : characters lead) :
      cursor.Expects characters :=
    ⟨clean, lead, peeked, holds⟩
  rcases ofLead?_eq_some selected with ⟨rfl, marker⟩ | ⟨rfl, letter⟩ | ⟨rfl, digit⟩ |
    ⟨rfl, separator⟩ | ⟨rfl, operator⟩ | ⟨_, isQuote⟩
  · exact expects marker
  · exact expects letter
  · exact expects digit
  · exact expects separator
  · exact expects operator
  · exact absurd isQuote notQuote

theorem fits_string {quote : Char} {next : Cursor} (clean : cursor.start = cursor.position)
    (isQuote : Quote quote) (opened : Cursor.Reads cursor [quote] next) :
    (State.string quote).Fits next := by
  refine ⟨isQuote, ?_⟩
  rw [Cursor.lexeme_eq_ofList_pending, opened.pending, Cursor.pending_of_clean clean]
  rfl

/-- A number that begins with a digit has digits in front of its point. -/
theorem fits_fraction {digits : List Char} {next : Cursor} (expects : cursor.Expects Digit)
    (areDigits : ∀ digit ∈ digits, Digit digit)
    (reads : Cursor.Reads cursor (digits ++ ['.']) next) : State.fraction.Fits next := by
  refine ⟨digits, ?_, areDigits, ?_⟩
  · rintro rfl
    obtain ⟨lead, peeked, digit⟩ := expects.next
    rw [Cursor.peek?_eq_head?_rest, reads.rest] at peeked
    cases peeked
    exact point_not_digit digit
  · rw [Cursor.lexeme_eq_ofList_pending, reads.pending, Cursor.pending_of_clean expects.clean,
      List.nil_append]

theorem fits_step (fits : state.Fits cursor)
    (outcome : (state.step cursor).outcome = .ok (.next following)) :
    following.Fits (state.step cursor).cursor := by
  have takes := takes_step state cursor
  generalize state.step cursor = step at takes outcome ⊢
  cases takes with
  | complete notStart reads =>
      simp only [Step.complete] at outcome ⊢
      split at outcome <;> cases outcome
      rfl
  | exhausted => cases outcome
  | stray => cases outcome
  | opened isQuote opened =>
      cases outcome
      exact fits_string (Cursor.clean_skipWhitespace fits) isQuote opened
  | selected remains selected notQuote =>
      cases outcome
      exact fits_of_ofLead? (Cursor.clean_skipWhitespace fits) remains selected notQuote
  | point areDigits reads =>
      cases outcome
      exact fits_fraction fits areDigits reads
  | unclosed => cases outcome

/-- Where the input is consumed, nothing is pending. -/
theorem clean_of_exhausted (fits : state.Fits cursor)
    (outcome : (state.step cursor).outcome = .ok .exhausted) :
    (state.step cursor).cursor.start = (state.step cursor).cursor.position ∧
      (state.step cursor).cursor.rest = [] := by
  have takes := takes_step state cursor
  generalize state.step cursor = step at takes outcome ⊢
  cases takes with
  | @complete state kind text last notStart reads =>
      have behind : (Step.complete kind last).cursor.rest = last.rest := last.rest_resetStart
      refine ⟨rfl, ?_⟩
      simp only [Step.complete] at outcome
      split at outcome
      · next atEnd => rw [behind, ← Cursor.isAtEnd_iff, atEnd]
      · cases outcome
  | exhausted ended => exact ⟨Cursor.clean_skipWhitespace fits, ended⟩
  | stray => cases outcome
  | opened => cases outcome
  | selected => cases outcome
  | point => cases outcome
  | unclosed => cases outcome

/-! ### Every token has some text -/

theorem finds_of_expects {characters : Char → Prop} {predicate : Char → Bool}
    (expects : cursor.Expects characters)
    (implies : ∀ character, characters character → predicate character = true) :
    cursor.peek?.any predicate = true := by
  obtain ⟨character, peeked, holds⟩ := expects.next
  rw [peeked, Option.any_some]
  exact implies character holds

/-- A state that fits has its characters ahead, or else some text is pending. -/
theorem Fits.finds_or_pending (fits : state.Fits cursor) (notStart : state ≠ .start) :
    state.finds cursor = true ∨ cursor.pending ≠ [] := by
  cases state with
  | start => exact absurd rfl notStart
  | comment =>
      refine .inl (finds_of_expects fits ?_)
      rintro character rfl
      rfl
  | identifier =>
      refine .inl (finds_of_expects fits fun character letter => ?_)
      exact (isIdentifierContinue_iff character).mpr (.inl letter)
  | integer =>
      exact .inl (finds_of_expects fits fun character => (isDigit_iff character).mpr)
  | fraction =>
      obtain ⟨digits, _, _, lexeme⟩ := fits
      right
      simp [Cursor.pending, lexeme]
  | string quote =>
      right
      simp [Cursor.pending, fits.2]
  | operator =>
      obtain ⟨character, peeked, _⟩ := fits.next
      exact .inl (by rw [finds, peeked]; rfl)
  | separator =>
      obtain ⟨character, peeked, _⟩ := fits.next
      exact .inl (by rw [finds, peeked]; rfl)

/-- A state that finds its characters completes no token without one of them. -/
theorem rest_lt_of_finds {kind : Kind} {last : Cursor} (found : state.finds cursor = true)
    (stepped : state.step cursor = .complete kind last) :
    last.rest.length < cursor.rest.length := by
  by_cases atEnd : last.isAtEnd = true
  · rw [(Cursor.isAtEnd_iff last).mp atEnd]
    exact List.length_pos_of_ne_nil (rest_ne_nil_of_finds found)
  · have outcome : (state.step cursor).outcome = .ok (.next .start) := by
      rw [stepped, Step.complete, if_neg atEnd]
    have notStart : state ≠ .start := by
      rintro rfl
      cases found
    have less := cost_step_lt Cursor.shrinks_rest outcome
    have landed : (state.step cursor).cursor.rest = last.rest := by
      rw [stepped]
      exact last.rest_resetStart
    simp only [cost, detour, if_true, if_neg notStart, found, landed] at less
    omega

theorem lexeme_ne_empty (fits : state.Fits cursor)
    (emitted : (state.step cursor).emitted = some token) : token.lexeme ≠ "" := by
  have takes := takes_step state cursor
  generalize stepped : state.step cursor = step at takes emitted
  cases takes with
  | @complete state kind text last notStart reads =>
      cases emitted
      intro (empty : last.lexeme = "")
      have nothing : last.pending = [] := by rw [Cursor.pending, empty, String.toList_empty]
      rw [reads.pending, List.append_eq_nil_iff] at nothing
      obtain ⟨nonePending, rfl⟩ := nothing
      rcases fits.finds_or_pending notStart with found | pending
      · have shorter := rest_lt_of_finds found stepped
        rw [reads.rest] at shorter
        exact absurd shorter (Nat.lt_irrefl _)
      · exact pending nonePending
  | exhausted => cases emitted
  | stray => cases emitted
  | opened => cases emitted
  | selected => cases emitted
  | point => cases emitted
  | unclosed => cases emitted

end State

/-! ### The states of a run -/

/-- What a run adds behind the tokens of its moves, after its last move. -/
def Move.ending (move : Move) : Run :=
  match move.step.outcome with
  | .error error => ⟨[], some error⟩
  | .ok _ => ⟨[move.step.cursor.token .finish], none⟩

theorem Move.kind_of_mem_ending {move : Move} {token : Token}
    (membership : token ∈ move.ending.tokens) : token.kind = .finish := by
  rw [ending] at membership
  split at membership
  · cases membership
  · rw [List.mem_singleton.mp membership]
    rfl

namespace Run

/-- The states that a run enters, one after the other. -/
def states (state : State) (cursor : Cursor) : List State :=
  let step := state.step cursor
  match _outcome : step.outcome with
  | .ok (.next following) => state :: states following step.cursor
  | _ => [state]
termination_by state.measure cursor
decreasing_by exact State.measure_step_lt _outcome

/-- The moves of a run over a source. -/
def moves (source : String) : List Move :=
  (Cursor.ofString source).moves (states .start (Cursor.ofString source))

variable {state following : State} {cursor : Cursor} {move : Move}

theorem states_of_next (outcome : (state.step cursor).outcome = .ok (.next following)) :
    states state cursor = state :: states following (state.step cursor).cursor := by
  rw [states]
  split <;> simp_all

theorem states_of_last
    (outcome : ∀ following, (state.step cursor).outcome ≠ .ok (.next following)) :
    states state cursor = [state] := by
  rw [states]
  split <;> simp_all

theorem fits_of_mem_moves (fits : state.Fits cursor)
    (membership : move ∈ cursor.moves (states state cursor)) : move.state.Fits move.origin := by
  fun_induction states state cursor with
  | case1 state cursor step following outcome inductionHypothesis =>
      rcases List.mem_cons.mp membership with rfl | later
      · exact fits
      · exact inductionHypothesis (State.fits_step fits outcome) later
  | case2 state cursor step last =>
      obtain rfl := List.mem_singleton.mp membership
      exact fits

theorem filterMap_emitted_cons (move : Move) (moves : List Move) :
    (move :: moves).filterMap (fun move => move.step.emitted) =
      move.step.emitted.toList ++ moves.filterMap fun move => move.step.emitted := by
  rw [List.filterMap_cons]
  cases move.step.emitted <;> rfl

theorem emit_ending (move : Move) :
    emit move.step.emitted move.ending =
      ⟨[move].filterMap (fun move => move.step.emitted) ++ move.ending.tokens,
        move.ending.failure⟩ := by
  rw [filterMap_emitted_cons, List.filterMap_nil, List.append_nil]
  rfl

/-- A run is made of its moves: their tokens, in order, and what the last one ends with. -/
theorem drive_eq_moves (state : State) (cursor : Cursor) :
    ∃ last, (cursor.moves (states state cursor)).getLast? = some last ∧
      drive state cursor =
        ⟨(cursor.moves (states state cursor)).filterMap (fun move => move.step.emitted) ++
          last.ending.tokens, last.ending.failure⟩ := by
  fun_induction drive state cursor with
  | case1 state cursor step error outcome =>
      have ending : (Move.mk cursor state).ending = ⟨[], some error⟩ := by
        simp only [Move.ending, Move.step, step, outcome]
      rw [states_of_last (by simp [step, outcome]), ← ending]
      exact ⟨⟨cursor, state⟩, rfl, emit_ending ⟨cursor, state⟩⟩
  | case2 state cursor step outcome =>
      have ending : (Move.mk cursor state).ending = ⟨[step.cursor.token .finish], none⟩ := by
        simp only [Move.ending, Move.step, step, outcome]
      have margin : closing [0] step.cursor = [step.cursor.token .finish] := rfl
      rw [states_of_last (by simp [step, outcome]), margin, ← ending]
      exact ⟨⟨cursor, state⟩, rfl, emit_ending ⟨cursor, state⟩⟩
  | case3 state cursor step following outcome inductionHypothesis =>
      obtain ⟨last, isLast, driven⟩ := inductionHypothesis
      rw [states_of_next outcome, Cursor.moves]
      refine ⟨last, ?_, ?_⟩
      · rw [List.getLast?_cons, isLast]
        rfl
      · rw [driven, emit, filterMap_emitted_cons, List.append_assoc]
        rfl

/-- Each state that a run enters fits the cursor, by what is pending and what comes next. A run
that is not stopped ends with nothing pending, at the end of the source. So every token but the
`finish` has some text. -/
theorem states_fit (source : String) :
    let run := ofString source
    (∃ last, (moves source).getLast? = some last ∧
      run = ⟨(moves source).filterMap (fun move => move.step.emitted) ++ last.ending.tokens,
        last.ending.failure⟩) ∧
    (∀ move ∈ moves source, move.origin.source = source ∧ move.state.Fits move.origin) ∧
    (∀ move ∈ moves source, move.step.outcome = .ok .exhausted →
      move.step.cursor.start = move.step.cursor.position ∧
        move.step.cursor.position.offset.byteIdx = source.utf8ByteSize) ∧
    ∀ token ∈ run.tokens, token.kind ≠ .finish → token.lexeme ≠ "" := by
  intro run
  have made := drive_eq_moves .start (Cursor.ofString source)
  have inSource : ∀ move ∈ moves source, move.origin.source = source := by
    intro move membership
    exact (Cursor.advances_of_mem_moves membership).source_eq
  have fit : ∀ move ∈ moves source, move.state.Fits move.origin := by
    intro move membership
    have fits : State.start.Fits (Cursor.ofString source) := rfl
    exact fits_of_mem_moves fits membership
  refine ⟨made, fun move membership => ⟨inSource move membership, fit move membership⟩, ?_, ?_⟩
  · intro move membership outcome
    obtain ⟨clean, ended⟩ := State.clean_of_exhausted (fit move membership) outcome
    have sameSource : move.step.cursor.source = source :=
      (State.source_step move.state move.origin).trans (inSource move membership)
    have whole := Cursor.offset_of_rest_nil ended
    exact ⟨clean, whole.trans (congrArg String.utf8ByteSize sameSource)⟩
  · intro token membership notFinish
    obtain ⟨last, _, driven⟩ := made
    have inRun : token ∈ (moves source).filterMap (fun move => move.step.emitted) ++
        last.ending.tokens := by
      have same : run.tokens = _ := congrArg Run.tokens driven
      rwa [same] at membership
    rcases List.mem_append.mp inRun with emitted | closing
    · obtain ⟨move, inMoves, completed⟩ := List.mem_filterMap.mp emitted
      exact State.lexeme_ne_empty (fit move inMoves) completed
    · exact absurd (Move.kind_of_mem_ending closing) notFinish

-- The fraction is entered behind the point and the literal behind its quote.
example : states .start (Cursor.ofString "1.5 'a'") =
    [.start, .integer, .fraction, .start, .string '\x27'] := by
  decide +kernel

end Run

end Tokenizer
