import Mathlib.Data.List.TakeWhile
import Tokenizer.Proofs.Grammar.LongestMatch
import Tokenizer.Proofs.Scanner.Trace

/-!
What each state reads. A state that finds the character it is there for reads
the longest match at the cursor.
-/

namespace Tokenizer

open Grammar

namespace State

/-! ### White space -/

theorem rest_skipWhitespace (cursor : Cursor) :
    (skipWhitespace cursor).rest = cursor.rest.dropWhile isWhitespace := by
  unfold skipWhitespace
  split
  · rw [Cursor.rest_resetStart, Cursor.rest_eatWhile]
  · next nothingToSkip =>
      rw [Cursor.peek?_eq_head?_rest] at nothingToSkip
      cases remains : cursor.rest with
      | nil => rfl
      | cons character tail =>
          rw [List.dropWhile_cons_of_neg (by simpa [remains] using nothingToSkip)]

theorem line_skipWhitespace (cursor : Cursor) :
    (skipWhitespace cursor).line =
      lineAfter cursor.line (cursor.rest.takeWhile isWhitespace) := by
  unfold skipWhitespace
  split
  · exact (Cursor.reads_eatWhile isWhitespace cursor).line
  · next nothingToSkip =>
      rw [Cursor.peek?_eq_head?_rest] at nothingToSkip
      cases remains : cursor.rest with
      | nil => simp
      | cons character tail =>
          rw [List.takeWhile_cons_of_neg (by simpa [remains] using nothingToSkip), lineAfter_nil]

/-- White space gives up the pending text; without it the text stays pending. -/
theorem lexeme_skipWhitespace (cursor : Cursor) :
    (skipWhitespace cursor).lexeme =
      if cursor.rest.head?.any isWhitespace then "" else cursor.lexeme := by
  rw [skipWhitespace, Cursor.peek?_eq_head?_rest]
  split
  · rw [Cursor.lexeme_eq_ofList_pending, Cursor.pending_resetStart, String.ofList_nil]
  · rfl

theorem lexeme_skipWhitespace_of_clean {cursor : Cursor} (clean : cursor.pending = []) :
    (skipWhitespace cursor).lexeme = "" := by
  rw [lexeme_skipWhitespace, Cursor.lexeme_eq_ofList_pending, clean, String.ofList_nil, ite_self]

/-! ### The body of a literal -/

/-- A literal is read through its first quote outside a backslash and the
character after it. Without one the rest of the input is read. -/
theorem closeString_spec (quote : Char) (cursor : Cursor) :
    (∃ (next : Cursor) (body : List (List Char)), closeString quote cursor = .ok next ∧
        quote ≠ '\\' ∧ (∀ unit ∈ body, BodyUnit quote unit) ∧
        Cursor.Reads cursor (body.flatten ++ [quote]) next) ∨
      ∃ last, closeString quote cursor = .error last ∧
        (quote ≠ '\\' → [quote] ∉ units cursor.rest) ∧
        Cursor.Reads cursor cursor.rest last ∧ last.rest = [] := by
  fun_induction closeString quote cursor with
  | case1 cursor bumped =>
      have empty := (Cursor.bump?_eq_none_iff cursor).mp bumped
      refine .inr ⟨cursor, rfl, ?_, ?_, empty⟩
      · simp [empty, units]
      · rw [empty]
        exact .refl cursor
  | case2 cursor character next bumped isEscape ended =>
      have empty := (Cursor.bump?_eq_none_iff next).mp ended
      have reads := Cursor.reads_of_bump? bumped
      have escape : character = '\\' := eq_of_beq isEscape
      subst escape
      refine .inr ⟨next, rfl, ?_, ?_, empty⟩
      · intro different
        rw [reads.rest, empty]
        simpa [units] using different
      · rw [reads.rest, empty]
        exact reads
  | case3 cursor character next bumped isEscape escaped after following inductionHypothesis =>
      have reads := (Cursor.reads_of_bump? bumped).trans (Cursor.reads_of_bump? following)
      have escape : character = '\\' := eq_of_beq isEscape
      subst escape
      rcases inductionHypothesis with
        ⟨closed, body, result, plain, each, further⟩ | ⟨last, result, unclosed, further, ended⟩
      · refine .inl ⟨closed, ['\\', escaped] :: body, result, plain, ?_, reads.trans further⟩
        exact List.forall_mem_cons.mpr ⟨.inr ⟨escaped, rfl⟩, each⟩
      · refine .inr ⟨last, result, ?_, ?_, ended⟩
        · intro different
          rw [reads.rest]
          simp only [List.cons_append, List.nil_append, units, List.mem_cons, not_or]
          exact ⟨by simp, unclosed different⟩
        · rw [reads.rest]
          exact reads.trans further
  | case4 cursor character next bumped notEscape isQuote =>
      have reads := Cursor.reads_of_bump? bumped
      have same : character = quote := eq_of_beq isQuote
      subst same
      exact .inl ⟨next, [], rfl, by simpa using notEscape, by simp, reads⟩
  | case5 cursor character next bumped notEscape notQuote inductionHypothesis =>
      have reads := Cursor.reads_of_bump? bumped
      have plain : character ≠ '\\' := by simpa using notEscape
      have different : character ≠ quote := by simpa using notQuote
      rcases inductionHypothesis with
        ⟨closed, body, result, plainQuote, each, further⟩ | ⟨last, result, unclosed, further, ended⟩
      · refine .inl ⟨closed, [character] :: body, result, plainQuote, ?_, reads.trans further⟩
        exact List.forall_mem_cons.mpr ⟨.inl ⟨character, ⟨plain, different⟩, rfl⟩, each⟩
      · refine .inr ⟨last, result, ?_, ?_, ended⟩
        · intro plainQuote
          rw [reads.rest, List.singleton_append, units_cons plain, List.mem_cons, not_or]
          exact ⟨by simpa using different.symm, unclosed plainQuote⟩
        · rw [reads.rest]
          exact reads.trans further

/-! ### Longest matches -/

theorem refused_of_head?_dropWhile {predicate : Char → Bool} {text : List Char} {next : Char}
    (isNext : next ∈ (text.dropWhile predicate).head?) : predicate next = false := by
  have refused := List.head?_dropWhile_not predicate text
  rw [Option.mem_def.mp isNext] at refused
  simpa using refused

/-- Running `state` at `cursor` completes the longest match at `origin`, where
the token in progress began, and goes on behind it. -/
def Munches (state : State) (origin cursor : Cursor) : Prop :=
  ∃ kind lexeme last, Cursor.Reads origin lexeme last ∧ LongestMatch origin.rest kind lexeme ∧
    Trace.drive state cursor =
      Trace.emit (some ⟨last.token kind, last.resetStart⟩) (Trace.drive .start last.resetStart)

theorem munches_of_complete {state : State} {origin cursor last : Cursor} {kind : Kind}
    {lexeme : List Char} (stepped : state.step cursor = .complete kind last)
    (reads : Cursor.Reads origin lexeme last) (membership : lexeme ∈ kind.grammar)
    (boundary : ∀ next ∈ last.rest.head?, ¬ Continues kind lexeme next) :
    Munches state origin cursor := by
  refine ⟨kind, lexeme, last, reads, ?_, Trace.drive_of_complete stepped⟩
  rw [reads.rest, longestMatch_iff]
  refine ⟨membership, fun next isNext => ?_⟩
  rw [extends_iff membership]
  exact boundary next isNext

theorem munches_comment {cursor : Cursor} {tail : List Char} (remains : cursor.rest = '#' :: tail) :
    Munches .comment cursor cursor := by
  have reads := Cursor.reads_eatWhile (fun c => !isLineEnd c) cursor
  refine munches_of_complete rfl reads ?_ ?_
  · rw [remains, List.takeWhile_cons_of_pos (by decide)]
    refine mem_comment.mpr ⟨_, ?_, rfl⟩
    intro character membership
    have inLine := List.mem_takeWhile_imp membership
    rwa [Bool.not_eq_true', ← Bool.not_eq_true, isLineEnd_iff] at inLine
  · intro next isNext continues
    rw [Cursor.rest_eatWhile] at isNext
    have ended := refused_of_head?_dropWhile isNext
    rw [Bool.not_eq_false', isLineEnd_iff] at ended
    exact continues ended

theorem munches_identifier {cursor : Cursor} {lead : Char} {tail : List Char}
    (remains : cursor.rest = lead :: tail) (letter : Letter lead) :
    Munches .identifier cursor cursor := by
  have reads := Cursor.reads_eatWhile isIdentifierContinue cursor
  refine munches_of_complete rfl reads ?_ ?_
  · rw [remains, List.takeWhile_cons_of_pos ((isIdentifierContinue_iff lead).mpr (.inl letter))]
    refine mem_identifier.mpr ⟨lead, _, letter, ?_, rfl⟩
    intro character membership
    exact (isIdentifierContinue_iff character).mp (List.mem_takeWhile_imp membership)
  · intro next isNext continues
    rw [Cursor.rest_eatWhile] at isNext
    have refused := refused_of_head?_dropWhile isNext
    rw [(isIdentifierContinue_iff next).mpr continues] at refused
    cases refused

theorem digits_takeWhile (text : List Char) :
    ∀ character ∈ text.takeWhile Char.isDigit, Digit character := fun character membership =>
  (isDigit_iff character).mp (List.mem_takeWhile_imp membership)

theorem not_digit_of_head?_dropWhile {text : List Char} {next : Char}
    (isNext : next ∈ (text.dropWhile Char.isDigit).head?) : ¬ Digit next := by
  intro digit
  have refused := refused_of_head?_dropWhile isNext
  rw [(isDigit_iff next).mpr digit] at refused
  cases refused

theorem munches_fraction {origin cursor : Cursor} {whole : List Char}
    (isWhole : whole ∈ Kind.integer.grammar)
    (reads : Cursor.Reads origin (whole ++ ['.']) cursor) : Munches .fraction origin cursor := by
  have further := Cursor.reads_eatWhile Char.isDigit cursor
  refine munches_of_complete rfl (reads.trans further) ?_ ?_
  · rw [List.append_assoc, List.singleton_append]
    exact mem_real.mpr ⟨whole, isWhole, _, digits_takeWhile _, rfl⟩
  · intro next isNext
    rw [Cursor.rest_eatWhile] at isNext
    exact not_digit_of_head?_dropWhile isNext

theorem munches_integer {cursor : Cursor} {lead : Char} {tail : List Char}
    (remains : cursor.rest = lead :: tail) (digit : Digit lead) :
    Munches .integer cursor cursor := by
  have reads := Cursor.reads_eatWhile Char.isDigit cursor
  have isWhole : cursor.rest.takeWhile Char.isDigit ∈ Kind.integer.grammar := by
    refine mem_integer.mpr ⟨?_, digits_takeWhile _⟩
    rw [remains, List.takeWhile_cons_of_pos ((isDigit_iff lead).mpr digit)]
    exact List.cons_ne_nil _ _
  cases matched : (cursor.eatWhile Char.isDigit).match? '.' with
  | some next =>
      have handover : State.integer.step cursor = .silent next (.ok (.next .fraction)) := by
        simp only [step, stepInteger, matched]
      rw [Munches, Trace.drive_of_silent_next handover]
      exact munches_fraction isWhole (reads.trans (Cursor.reads_of_match? matched))
  | none =>
      have stepped : State.integer.step cursor =
          .complete .integer (cursor.eatWhile Char.isDigit) := by
        simp only [step, stepInteger, matched]
      refine munches_of_complete stepped reads isWhole ?_
      rintro next isNext (digit | rfl)
      · rw [Cursor.rest_eatWhile] at isNext
        exact not_digit_of_head?_dropWhile isNext digit
      · exact (Cursor.match?_eq_none_iff _ _).mp matched isNext

theorem munches_separator {cursor : Cursor} {lead : Char} {tail : List Char}
    (remains : cursor.rest = lead :: tail) (separator : Separator lead) :
    Munches .separator cursor cursor := by
  rcases Cursor.exists_bump? remains with ⟨next, bumped, _⟩
  have stepped : State.separator.step cursor = .complete .separator next := by
    simp only [step, afterSeparator, bumped]
  exact munches_of_complete stepped (Cursor.reads_of_bump? bumped) ⟨lead, separator, rfl⟩
    fun _ _ impossible => impossible

theorem munches_operator {cursor : Cursor} {lead : Char} {tail : List Char}
    (remains : cursor.rest = lead :: tail) (operator : Operator lead) :
    Munches .operator cursor cursor := by
  rcases Cursor.exists_bump? remains with ⟨next, bumped, nextRest⟩
  have reads := Cursor.reads_of_bump? bumped
  have single : [lead] ∈ Kind.operator.grammar := mem_operator.mpr (.inl ⟨lead, operator, rfl⟩)
  cases following : next.bump? with
  | none =>
      have stepped : State.operator.step cursor = .complete .operator next := by
        simp only [step, afterOperator, bumped, following]
      refine munches_of_complete stepped reads single ?_
      simp [(Cursor.bump?_eq_none_iff next).mp following]
  | some result =>
      obtain ⟨second, last⟩ := result
      have further := Cursor.reads_of_bump? following
      by_cases isPair : isTwoCharacterOperator lead second = true
      · have stepped : State.operator.step cursor = .complete .operator last := by
          simp only [step, afterOperator, bumped, following, isPair, if_true]
        have pair := (isTwoCharacterOperator_iff lead second).mp isPair
        refine munches_of_complete stepped (reads.trans further) (mem_operator.mpr (.inr pair)) ?_
        intro third _ longer
        have lengths : ∀ word ∈ operatorPairs, word.length ≤ 2 := by decide
        have tooLong := lengths _ longer
        simp at tooLong
      · have stepped : State.operator.step cursor = .complete .operator next := by
          simp only [step, afterOperator, bumped, following, if_neg isPair]
        refine munches_of_complete stepped reads single ?_
        intro candidate isNext continues
        rw [further.rest] at isNext
        cases isNext
        exact isPair ((isTwoCharacterOperator_iff lead second).mpr continues)

theorem munches_of_ofLead? {cursor : Cursor} {lead : Char} {tail : List Char} {state : State}
    (remains : cursor.rest = lead :: tail) (selected : ofLead? lead = some state)
    (notQuote : ¬ Quote lead) : Munches state cursor cursor := by
  rcases ofLead?_eq_some selected with ⟨rfl, rfl⟩ | ⟨rfl, letter⟩ | ⟨rfl, digit⟩ |
    ⟨rfl, separator⟩ | ⟨rfl, operator⟩ | ⟨_, isQuote⟩
  · exact munches_comment remains
  · exact munches_identifier remains letter
  · exact munches_integer remains digit
  · exact munches_separator remains separator
  · exact munches_operator remains operator
  · exact absurd isQuote notQuote

theorem munches_string {origin cursor last : Cursor} {quote : Char} {body : List (List Char)}
    (isQuote : Quote quote) (closed : closeString quote cursor = .ok last)
    (each : ∀ unit ∈ body, BodyUnit quote unit)
    (reads : Cursor.Reads origin (quote :: (body.flatten ++ [quote])) last) :
    Munches (.string quote) origin cursor := by
  have stepped : (State.string quote).step cursor = .complete .string last := by
    simp only [step, stepString, closed]
  refine munches_of_complete stepped reads ?_ fun _ _ impossible => impossible
  exact mem_string.mpr ⟨quote, isQuote, mem_literal.mpr ⟨body, each, rfl⟩⟩

/-! ### The start state -/

theorem step_start_of_rest_nil {cursor : Cursor} (ended : (skipWhitespace cursor).rest = []) :
    State.start.step cursor = .silent (skipWhitespace cursor) (.ok .exhausted) := by
  simp only [step, stepStart, (Cursor.bump?_eq_none_iff _).mpr ended]

theorem step_start_of_ofLead?_none {cursor : Cursor} {lead : Char} {tail : List Char}
    (remains : (skipWhitespace cursor).rest = lead :: tail) (unselected : ofLead? lead = none) :
    State.start.step cursor = .silent (skipWhitespace cursor)
      (.error (.unrecognizedCharacter (skipWhitespace cursor).line lead)) := by
  rcases Cursor.exists_bump? remains with ⟨next, bumped, _⟩
  simp only [step, stepStart, bumped, unselected]

theorem step_start_of_quote {cursor : Cursor} {quote : Char} {tail : List Char}
    (remains : (skipWhitespace cursor).rest = quote :: tail) (isQuote : Quote quote) :
    ∃ next, Cursor.Reads (skipWhitespace cursor) [quote] next ∧
      State.start.step cursor = .silent next (.ok (.next (.string quote))) := by
  rcases Cursor.exists_bump? remains with ⟨next, bumped, _⟩
  refine ⟨next, Cursor.reads_of_bump? bumped, ?_⟩
  simp only [step, stepStart, bumped, ofLead?_of_quote isQuote]

theorem step_start_of_ofLead? {cursor : Cursor} {lead : Char} {tail : List Char} {state : State}
    (remains : (skipWhitespace cursor).rest = lead :: tail) (selected : ofLead? lead = some state)
    (notQuote : ¬ Quote lead) :
    State.start.step cursor = .silent (skipWhitespace cursor) (.ok (.next state)) := by
  rcases Cursor.exists_bump? remains with ⟨next, bumped, _⟩
  simp only [step, stepStart, bumped, selected]
  rcases ofLead?_eq_some selected with ⟨rfl, _⟩ | ⟨rfl, _⟩ | ⟨rfl, _⟩ | ⟨rfl, _⟩ | ⟨rfl, _⟩ |
    ⟨_, isQuote⟩
  · rfl
  · rfl
  · rfl
  · rfl
  · rfl
  · exact absurd isQuote notQuote

end State

end Tokenizer
