import Tokenizer.Proofs.Scanner.Reading

/-!
The scanner's meaning, stated on texts.

`Scans` describes a run by the grammars alone: white space is skipped, the
longest match is a token, and a run stops at a stray character or in a literal
that is never closed. The scanner's runs are exactly these.
-/

namespace Tokenizer

open Grammar

/-- A token with the text that remains behind it. -/
abbrev Mark := Token × List Char

def Emission.mark (emission : Emission) : Mark :=
  (emission.token, emission.cursor.rest)

theorem Emission.map_fst_mark (emissions : List Emission) :
    (emissions.map mark).map Prod.fst = emissions.map token :=
  List.map_map

/-- The run over a text that begins on the given line. -/
inductive Scans : UInt32 → List Char → List Mark → Option LexicalError → Prop where
  | finish {line} : Scans line [] [(⟨.finish, line, ""⟩, [])] none
  | blank {line character rest marks failure} : Blank character →
      Scans (lineAfter line [character]) rest marks failure →
      Scans line (character :: rest) marks failure
  | stray {line character rest} : Stray character →
      Scans line (character :: rest) [] (some (.unrecognizedCharacter line character))
  | unclosed {line quote body} : Quote quote → [quote] ∉ units body →
      Scans line (quote :: body) [] (some (.unterminatedString (lineAfter line (quote :: body))))
  | token {line kind lexeme rest marks failure} : LongestMatch (lexeme ++ rest) kind lexeme →
      Scans (lineAfter line lexeme) rest marks failure →
      Scans line (lexeme ++ rest)
        ((⟨kind, lineAfter line lexeme, String.ofList lexeme⟩, rest) :: marks) failure

theorem Scans.gap {line : UInt32} {gap text : List Char} {marks : List Mark}
    {failure : Option LexicalError} (blank : ∀ character ∈ gap, Blank character)
    (scans : Scans (lineAfter line gap) text marks failure) :
    Scans line (gap ++ text) marks failure := by
  induction gap generalizing line with
  | nil => simpa using scans
  | cons character gap inductionHypothesis =>
      rw [List.forall_mem_cons] at blank
      rw [← List.singleton_append, lineAfter_append] at scans
      exact .blank blank.1 (inductionHypothesis blank.2 scans)

/-! ### Runs are scans -/

theorem blank_takeWhile (text : List Char) :
    ∀ character ∈ text.takeWhile isWhitespace, Blank character := fun character membership =>
  (isWhitespace_iff character).mp (List.mem_takeWhile_imp membership)

theorem not_blank_of_dropWhile {text tail : List Char} {lead : Char}
    (remains : text.dropWhile isWhitespace = lead :: tail) : ¬ Blank lead := by
  intro blank
  have isHead : lead ∈ (text.dropWhile isWhitespace).head? := by
    rw [remains]
    rfl
  have refused := State.refused_of_head?_dropWhile isHead
  rw [(isWhitespace_iff lead).mpr blank] at refused
  cases refused

/-- A trace as a scan of the text at a cursor. -/
def Trace.ScansFrom (trace : Trace) (line : UInt32) (text : List Char) : Prop :=
  Scans line text (trace.emissions.map Emission.mark) trace.failure

/-- The token with a text in front of its own. -/
def Token.prepend (text : String) (token : Token) : Token :=
  { token with lexeme := text ++ token.lexeme }

def Mark.prepend (text : String) (mark : Mark) : Mark :=
  (mark.1.prepend text, mark.2)

/-- A trace as a scan of the text at a cursor, but for a text that was pending there: it goes
with the first token, whichever that is. -/
def Trace.ScansBehind (trace : Trace) (pending : String) (line : UInt32) (text : List Char) :
    Prop :=
  ∃ marks, Scans line text marks trace.failure ∧
    trace.emissions.map Emission.mark = marks.modifyHead (Mark.prepend pending)

theorem Trace.ScansBehind.scansFrom {trace : Trace} {line : UInt32} {text : List Char}
    (behind : trace.ScansBehind "" line text) : trace.ScansFrom line text := by
  rcases behind with ⟨marks, scans, emitted⟩
  have unchanged : marks.modifyHead (Mark.prepend "") = marks := by
    cases marks <;> simp [Mark.prepend, Token.prepend]
  rw [ScansFrom, emitted, unchanged]
  exact scans

theorem State.Munches.scansBehind {state : State} {cursor origin : Cursor}
    (munches : Munches state origin cursor)
    (further : ∀ last : Cursor, last.pending = [] → last.rest.length < origin.rest.length →
      (Trace.drive .start last).ScansFrom last.line last.rest) :
    (Trace.drive state cursor).ScansBehind origin.lexeme origin.line origin.rest := by
  rcases munches with ⟨kind, lexeme, last, reads, isLongest, driven⟩
  have lexemeEquality : last.lexeme = origin.lexeme ++ String.ofList lexeme := by
    rw [Cursor.lexeme_eq_ofList_pending, reads.pending, String.ofList_append,
      ← Cursor.lexeme_eq_ofList_pending]
  have shorter : last.resetStart.rest.length < origin.rest.length := by
    have positive := List.length_pos_of_ne_nil isLongest.nonempty
    rw [Cursor.rest_resetStart, reads.rest, List.length_append]
    omega
  have tailScans := further last.resetStart (Cursor.pending_resetStart last) shorter
  rw [Trace.ScansFrom, Cursor.line_resetStart, Cursor.rest_resetStart, reads.line] at tailScans
  rw [reads.rest] at isLongest ⊢
  rw [driven]
  refine ⟨_, .token isLongest tailScans, ?_⟩
  simp [Trace.emit, Emission.mark, Mark.prepend, Token.prepend, Cursor.token, reads.line,
    lexemeEquality]

/-- A literal is either closed, and then it is the longest match, or the run
stops at the end of the input. -/
theorem scansBehind_of_quote {cursor next : Cursor} {tail : List Char} {quote : Char}
    (isQuote : Quote quote) (remains : cursor.rest = quote :: tail)
    (opened : Cursor.Reads cursor [quote] next)
    (further : ∀ last : Cursor, last.pending = [] → last.rest.length < cursor.rest.length →
      (Trace.drive .start last).ScansFrom last.line last.rest) :
    (Trace.drive (.string quote) next).ScansBehind cursor.lexeme cursor.line cursor.rest := by
  have body : next.rest = tail := by
    rw [opened.rest, List.singleton_append] at remains
    exact (List.cons.inj remains).2
  rcases State.closeString_spec quote next with
    ⟨last, units, closed, _, each, reads⟩ | ⟨last, unclosed, noQuote, reads, _⟩
  · exact (State.munches_string isQuote closed each (opened.trans reads)).scansBehind further
  · have stepped : (State.string quote).step next =
        .silent last (.error (.unterminatedString last.line)) := by
      simp only [State.step, State.stepString, unclosed]
    have endLine : last.line = lineAfter cursor.line (quote :: tail) := by
      rw [reads.line, opened.line, body, ← lineAfter_append, List.singleton_append]
    rw [Trace.drive_of_silent_error stepped, endLine, remains]
    rw [body] at noQuote
    exact ⟨[], .unclosed isQuote (noQuote isQuote.ne_backslash), rfl⟩

theorem scansBehind_drive_start (cursor : Cursor) :
    (Trace.drive .start cursor).ScansBehind (State.skipWhitespace cursor).lexeme cursor.line
      cursor.rest := by
  -- On the length of what remains: every token takes at least one character.
  induction bound : cursor.rest.length using Nat.strong_induction_on generalizing cursor with
  | _ length inductionHypothesis =>
      subst bound
      have skipped := State.rest_skipWhitespace cursor
      have split : cursor.rest =
          cursor.rest.takeWhile isWhitespace ++ (State.skipWhitespace cursor).rest := by
        rw [skipped, List.takeWhile_append_dropWhile]
      have further : ∀ last : Cursor, last.pending = [] →
          last.rest.length < (State.skipWhitespace cursor).rest.length →
          (Trace.drive .start last).ScansFrom last.line last.rest := by
        intro last clean shorter
        have within : last.rest.length < cursor.rest.length := by
          rw [split, List.length_append]
          omega
        have behind := inductionHypothesis last.rest.length within last rfl
        rw [State.lexeme_skipWhitespace_of_clean clean] at behind
        exact behind.scansFrom
      suffices behind : (Trace.drive .start cursor).ScansBehind
          (State.skipWhitespace cursor).lexeme (State.skipWhitespace cursor).line
          (State.skipWhitespace cursor).rest by
        rcases behind with ⟨marks, scans, emitted⟩
        rw [State.line_skipWhitespace] at scans
        rw [split]
        exact ⟨marks, .gap (blank_takeWhile cursor.rest) scans, emitted⟩
      cases remains : (State.skipWhitespace cursor).rest with
      | nil =>
          rw [Trace.drive_of_silent_exhausted (State.step_start_of_rest_nil remains)]
          refine ⟨_, .finish, ?_⟩
          simp [Emission.mark, Mark.prepend, Token.prepend, Cursor.token, remains]
      | cons lead tail =>
          have notBlank := not_blank_of_dropWhile (skipped.symm.trans remains)
          cases selected : State.ofLead? lead with
          | none =>
              rw [Trace.drive_of_silent_error (State.step_start_of_ofLead?_none remains selected)]
              exact ⟨[], .stray ((State.ofLead?_eq_none_iff notBlank).mp selected), rfl⟩
          | some state =>
              rw [← remains]
              by_cases isQuote : Quote lead
              · rcases State.step_start_of_quote remains isQuote with ⟨next, opened, stepped⟩
                rw [Trace.drive_of_silent_next stepped]
                exact scansBehind_of_quote isQuote remains opened further
              · rw [Trace.drive_of_silent_next
                  (State.step_start_of_ofLead? remains selected isQuote)]
                exact (State.munches_of_ofLead? remains selected isQuote).scansBehind further

theorem scansFrom_ofString (source : String) :
    (Trace.ofString source).ScansFrom 1 source.toList := by
  have behind := scansBehind_drive_start (Cursor.ofString source)
  rw [State.lexeme_skipWhitespace_of_clean (Cursor.pending_ofString source),
    Cursor.line_ofString, Cursor.rest_ofString] at behind
  exact behind.scansFrom

/-! ### A text has one scan

What a text begins with decides which rule applies. -/

theorem Scans.unique {line : UInt32} {text : List Char} {marks others : List Mark}
    {failure otherFailure : Option LexicalError} (first : Scans line text marks failure)
    (second : Scans line text others otherFailure) : marks = others ∧ failure = otherFailure := by
  induction first generalizing others otherFailure with
  | finish =>
      generalize same : ([] : List Char) = text at second
      cases second with
      | finish => exact ⟨rfl, rfl⟩
      | token isLongest _ => exact absurd (List.append_eq_nil_iff.mp same.symm).1 isLongest.nonempty
      | _ => cases same
  | @blank line character rest marks failure blank _ inductionHypothesis =>
      generalize same : character :: rest = text at second
      cases second with
      | finish => cases same
      | blank _ further =>
          cases same
          exact inductionHypothesis further
      | stray stray =>
          cases same
          exact absurd blank stray.notBlank
      | unclosed isQuote _ =>
          cases same
          exact absurd blank isQuote.not_blank
      | token isLongest _ => exact absurd blank (same ▸ isLongest).not_blank
  | @stray line character rest stray =>
      generalize same : character :: rest = text at second
      cases second with
      | finish => cases same
      | blank blank _ =>
          cases same
          exact absurd blank stray.notBlank
      | stray _ =>
          cases same
          exact ⟨rfl, rfl⟩
      | unclosed isQuote _ =>
          cases same
          exact absurd isQuote stray.notQuote
      | token isLongest _ => exact absurd stray (same ▸ isLongest).not_stray
  | @unclosed line quote body isQuote noQuote =>
      generalize same : quote :: body = text at second
      cases second with
      | finish => cases same
      | blank blank _ =>
          cases same
          exact absurd blank isQuote.not_blank
      | stray stray =>
          cases same
          exact absurd isQuote stray.notQuote
      | unclosed _ _ =>
          cases same
          exact ⟨rfl, rfl⟩
      | token isLongest _ =>
          exact absurd ((same ▸ isLongest).closed isQuote) noQuote
  | @token line kind lexeme rest marks failure isLongest _ inductionHypothesis =>
      generalize same : lexeme ++ rest = text at second
      cases second with
      | finish => exact absurd (List.append_eq_nil_iff.mp same).1 isLongest.nonempty
      | blank blank _ => exact absurd blank (same ▸ isLongest).not_blank
      | stray stray => exact absurd stray (same ▸ isLongest).not_stray
      | unclosed isQuote noQuote =>
          exact absurd ((same ▸ isLongest).closed isQuote) noQuote
      | token otherLongest further =>
          rw [← same] at otherLongest
          obtain ⟨rfl, rfl⟩ := isLongest.unique otherLongest
          obtain rfl := List.append_cancel_left same
          obtain ⟨rfl, rfl⟩ := inductionHypothesis further
          exact ⟨rfl, rfl⟩

/-- The trace over a source is its scan, and the only one. -/
theorem scans_iff_ofString {source : String} {marks : List Mark}
    {failure : Option LexicalError} :
    Scans 1 source.toList marks failure ↔
      (Trace.ofString source).emissions.map Emission.mark = marks ∧
        (Trace.ofString source).failure = failure := by
  constructor
  · intro scans
    exact (scansFrom_ofString source).unique scans
  · rintro ⟨rfl, rfl⟩
    exact scansFrom_ofString source

theorem Run.ofString_eq_iff {source : String} {tokens : List Token}
    {failure : Option LexicalError} :
    Run.ofString source = ⟨tokens, failure⟩ ↔
      ∃ marks, Scans 1 source.toList marks failure ∧ marks.map Prod.fst = tokens := by
  rw [← Trace.run_ofString, Trace.run, Run.mk.injEq]
  constructor
  · rintro ⟨tokensEquality, failureEquality⟩
    refine ⟨_, scans_iff_ofString.mpr ⟨rfl, failureEquality⟩, ?_⟩
    rw [Emission.map_fst_mark, tokensEquality]
  · rintro ⟨marks, scans, rfl⟩
    obtain ⟨rfl, rfl⟩ := scans_iff_ofString.mp scans
    exact ⟨(Emission.map_fst_mark _).symm, rfl⟩

theorem Run.exists_scans (source : String) :
    ∃ marks, Scans 1 source.toList marks (ofString source).failure ∧
      marks.map Prod.fst = (ofString source).tokens :=
  Run.ofString_eq_iff.mp rfl

theorem tokenize_eq_ok_iff {source : String} {tokens : List Token} :
    tokenize source = .ok tokens ↔ Run.ofString source = ⟨tokens, none⟩ := by
  rw [tokenize, Run.result]
  cases Run.ofString source with
  | mk emitted failure => cases failure <;> simp

theorem tokenize_eq_error_iff {source : String} {error : LexicalError} :
    tokenize source = .error error ↔ (Run.ofString source).failure = some error := by
  rw [tokenize, Run.result]
  cases (Run.ofString source).failure <;> simp

/-! ### The kinds that a run emits -/

/-- Only the last token of a run that did not fail is a `finish`, and it stands
on the last line; no token is a `dedent`. -/
theorem Scans.kinds {line : UInt32} {text : List Char} {marks : List Mark}
    {failure : Option LexicalError} (scans : Scans line text marks failure) :
    ∃ body : List Mark, (∀ mark ∈ body, mark.1.kind ≠ .dedent ∧ mark.1.kind ≠ .finish) ∧
      (failure = none → marks = body ++ [(⟨.finish, lineAfter line text, ""⟩, [])]) ∧
      (failure ≠ none → marks = body) := by
  induction scans with
  | finish => exact ⟨[], by simp, by simp, by simp⟩
  | @blank line character rest marks failure _ _ inductionHypothesis =>
      rw [← lineAfter_append] at inductionHypothesis
      exact inductionHypothesis
  | stray => exact ⟨[], by simp, by simp, by simp⟩
  | unclosed => exact ⟨[], by simp, by simp, by simp⟩
  | @token line kind lexeme rest marks failure isLongest _ inductionHypothesis =>
      rcases inductionHypothesis with ⟨body, proper, succeeded, failed⟩
      rw [← lineAfter_append] at succeeded
      refine ⟨(⟨kind, lineAfter line lexeme, String.ofList lexeme⟩, rest) :: body, ?_, ?_, ?_⟩
      · refine List.forall_mem_cons.mpr ⟨⟨?_, ?_⟩, proper⟩
        · rintro rfl
          exact isLongest.membership
        · rintro rfl
          exact isLongest.membership
      · intro success
        rw [succeeded success, List.cons_append]
      · intro failing
        rw [failed failing]

theorem Run.kinds_ofString (source : String) :
    ∃ body : List Token, (∀ token ∈ body, token.kind ≠ .dedent ∧ token.kind ≠ .finish) ∧
      ((ofString source).failure = none →
        (ofString source).tokens = body ++ [⟨.finish, lineAfter 1 source.toList, ""⟩]) ∧
      ((ofString source).failure ≠ none → (ofString source).tokens = body) := by
  generalize whole : ofString source = run
  rcases run with ⟨tokens, failure⟩
  rcases Run.ofString_eq_iff.mp whole with ⟨marks, scans, rfl⟩
  rcases scans.kinds with ⟨body, proper, succeeded, failed⟩
  refine ⟨body.map Prod.fst, ?_, ?_, ?_⟩
  · intro token membership
    rcases List.mem_map.mp membership with ⟨mark, inBody, rfl⟩
    exact proper mark inBody
  · intro success
    rw [succeeded success, List.map_append, List.map_singleton]
  · intro failing
    rw [failed failing]

end Tokenizer
