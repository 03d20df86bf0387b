import Tokenizer.Proofs.Scanner.Place
import Tokenizer.Proofs.Tokenization.Failure

/-!
The lines of tokens and errors.

The main result says which line feeds a line counts, for every token of a run and for the
error that ends it. A lone carriage return is none of them.
-/

namespace Tokenizer

open Grammar

/-! ### Lines within a word -/

/-- A literal ends with its quote, so it ends on the line on which that quote stands. -/
theorem exists_closing_quote {lexeme : String}
    (membership : lexeme.toList ∈ Kind.string.grammar) :
    ∃ body quote, lexeme = body ++ String.singleton quote ∧ Quote quote ∧
      lineFeeds lexeme = lineFeeds body := by
  rcases mem_string.mp membership with ⟨quote, isQuote, inLiteral⟩
  rcases mem_literal.mp inLiteral with ⟨body, _, equality⟩
  have parts : lexeme = String.ofList (quote :: body.flatten) ++ String.singleton quote := by
    apply String.toList_inj.mp
    rw [equality]
    simp
  have noLineFeed : lineFeeds (String.singleton quote) = 0 := by
    rcases isQuote with rfl | rfl <;> decide
  refine ⟨_, quote, parts, isQuote, ?_⟩
  rw [parts, lineFeeds_append, noLineFeed, Nat.add_zero]

theorem lineFeeds_eq_zero {kind : Kind} {lexeme : String}
    (membership : lexeme.toList ∈ kind.grammar) (notString : kind ≠ .string) :
    lineFeeds lexeme = 0 :=
  List.count_eq_zero_of_not_mem (lineEnd_not_mem (.inl rfl) membership notString)

/-! ### Lines never decrease -/

/-- A text that does not wrap the lines around does not do so behind a part of it. -/
theorem le_lineAfter_of_bounded {line : UInt32} {first second : List Char}
    (bounded : line.toNat + (first ++ second).count '\n' < 2 ^ 32) :
    line ≤ lineAfter line first ∧
      (lineAfter line first).toNat + second.count '\n' < 2 ^ 32 := by
  rw [List.count_append] at bounded
  have small : (lineAfter line first).toNat = line.toNat + first.count '\n' := by
    rw [toNat_lineAfter]
    exact Nat.mod_eq_of_lt (by omega)
  constructor
  · apply UInt32.le_iff_toNat_le.mpr
    omega
  · omega

/-- The line on which a run ends; if it fails, the line that the error carries. -/
def endLine (line : UInt32) (text : List Char) (failure : Option LexicalError) : UInt32 :=
  (failure.map LexicalError.line).getD (lineAfter line text)

theorem endLine_append (line : UInt32) (first second : List Char)
    (failure : Option LexicalError) :
    endLine line (first ++ second) failure = endLine (lineAfter line first) second failure := by
  rw [endLine, endLine, lineAfter_append]

theorem Scans.lines_le {line : UInt32} {text : List Char} {marks : List Mark}
    {failure : Option LexicalError} (scans : Scans line text marks failure)
    (bounded : line.toNat + text.count '\n' < 2 ^ 32) :
    line ≤ endLine line text failure ∧
      (∀ mark ∈ marks, line ≤ mark.1.line ∧ mark.1.line ≤ endLine line text failure) ∧
      marks.Pairwise fun earlier later => earlier.1.line ≤ later.1.line := by
  induction scans with
  | @finish line =>
      have sameLine : endLine line [] none = line := lineAfter_nil line
      rw [sameLine]
      refine ⟨UInt32.le_refl _, ?_, List.pairwise_singleton _ _⟩
      exact List.forall_mem_singleton.mpr ⟨UInt32.le_refl _, UInt32.le_refl _⟩
  | @blank line character rest marks failure _ _ inductionHypothesis =>
      rw [← List.singleton_append] at bounded ⊢
      rw [endLine_append]
      have further := le_lineAfter_of_bounded bounded
      rcases inductionHypothesis further.2 with ⟨ends, each, ordered⟩
      refine ⟨UInt32.le_trans further.1 ends, ?_, ordered⟩
      intro mark membership
      exact ⟨UInt32.le_trans further.1 (each mark membership).1, (each mark membership).2⟩
  | stray => exact ⟨UInt32.le_refl _, by simp, .nil⟩
  | @unclosed line quote body _ _ =>
      rw [← List.append_nil (quote :: body)] at bounded
      exact ⟨(le_lineAfter_of_bounded bounded).1, by simp, .nil⟩
  | @token line kind lexeme rest marks failure _ _ inductionHypothesis =>
      rw [endLine_append]
      have further := le_lineAfter_of_bounded bounded
      rcases inductionHypothesis further.2 with ⟨ends, each, ordered⟩
      refine ⟨UInt32.le_trans further.1 ends, ?_, List.pairwise_cons.mpr ⟨?_, ordered⟩⟩
      · refine List.forall_mem_cons.mpr ⟨⟨further.1, ends⟩, ?_⟩
        intro mark membership
        exact ⟨UInt32.le_trans further.1 (each mark membership).1, (each mark membership).2⟩
      · intro mark membership
        exact (each mark membership).1

theorem Run.lines_le {source : String} (bounded : lineFeeds source < 2 ^ 32 - 1) :
    (∀ token ∈ (ofString source).tokens,
      token.line ≤ endLine 1 source.toList (ofString source).failure) ∧
      (ofString source).tokens.Pairwise fun earlier later => earlier.line ≤ later.line := by
  rcases Run.exists_scans source with ⟨marks, scans, sameTokens⟩
  have fits : (1 : UInt32).toNat + source.toList.count '\n' < 2 ^ 32 := by
    rw [lineFeeds] at bounded
    rw [UInt32.toNat_one]
    omega
  rcases scans.lines_le fits with ⟨_, each, ordered⟩
  rw [← sameTokens]
  refine ⟨?_, List.pairwise_map.mpr ordered⟩
  intro token membership
  rcases List.mem_map.mp membership with ⟨mark, inMarks, rfl⟩
  exact (each mark inMarks).2

theorem Run.line_of_finish {source : String} {last : Token}
    (membership : last ∈ (ofString source).tokens) (isFinish : last.kind = .finish) :
    last.line = endLine 1 source.toList (ofString source).failure := by
  rcases Run.kinds_ofString source with ⟨body, proper, succeeded, failed⟩
  cases failure : (ofString source).failure with
  | none =>
      rw [succeeded failure, List.mem_append, List.mem_singleton] at membership
      rcases membership with inBody | rfl
      · exact absurd isFinish (proper last inBody).2
      · rfl
  | some error =>
      rw [failed (by simp [failure])] at membership
      exact absurd isFinish (proper last membership).2

/-! ### The lines of a run -/

theorem toNat_lineAfter_one (text : String) :
    (lineAfter 1 text.toList).toNat = (1 + lineFeeds text) % 2 ^ 32 :=
  toNat_lineAfter 1 text.toList

theorem Run.line_of_unrecognizedCharacter {source : String} {line : UInt32} {character : Char}
    (failed : (ofString source).failure = some (.unrecognizedCharacter line character)) :
    ∃ before after : String, source = before ++ String.singleton character ++ after ∧
      Stray character ∧
      tokenize before = .ok ((ofString source).tokens ++ [⟨.finish, line, ""⟩]) ∧
      line.toNat = (1 + lineFeeds before) % 2 ^ 32 := by
  have whole : ofString source =
      ⟨(ofString source).tokens, some (.unrecognizedCharacter line character)⟩ := by
    rw [← failed]
  rcases Run.ofString_eq_unrecognizedCharacter_iff.mp whole with
    ⟨before, after, parts, stray, succeeded, _⟩
  refine ⟨before, after, parts, stray, succeeded, ?_⟩
  rcases tokenize_eq_ok_concat_iff.mp succeeded with ⟨_, _, _, rfl⟩
  exact toNat_lineAfter_one before

theorem Run.line_of_unterminatedString {source : String} {line : UInt32}
    (failed : (ofString source).failure = some (.unterminatedString line)) :
    line.toNat = (1 + lineFeeds source) % 2 ^ 32 := by
  have whole : ofString source =
      ⟨(ofString source).tokens, some (.unterminatedString line)⟩ := by
    rw [← failed]
  rcases Run.ofString_eq_unterminatedString_iff.mp whole with ⟨_, _, _, _, _, _, _, _, rfl⟩
  exact toNat_lineAfter_one source

/-- A token is on the line on which the cursor stands when it is emitted: the line feeds
before that place count. So a literal has the line of its closing quote and any other token
the line on which it begins. An error has the line of the place where the run stops. Lines
wrap around in 32 bits; as long as they do not, they never decrease. -/
theorem lines_count_line_feeds (source : String) :
    let run := Run.ofString source
    let emissions := (Trace.ofString source).emissions
    emissions.map Emission.token = run.tokens ∧
    (∀ emission ∈ emissions, ∃ front rest : String,
      source = front ++ emission.token.lexeme ++ rest ∧
      emission.cursor.source = source ∧
      emission.cursor.position.offset.byteIdx =
        (front ++ emission.token.lexeme).utf8ByteSize ∧
      emission.token.line.toNat =
        (1 + lineFeeds (front ++ emission.token.lexeme)) % 2 ^ 32 ∧
      (emission.token.kind = .string → ∃ body quote,
        emission.token.lexeme = body ++ String.singleton quote ∧ Quote quote ∧
        emission.token.line.toNat = (1 + lineFeeds (front ++ body)) % 2 ^ 32) ∧
      (emission.token.kind ≠ .string →
        emission.token.line.toNat = (1 + lineFeeds front) % 2 ^ 32) ∧
      (emission.token.kind = .finish →
        emission.token.line.toNat = (1 + lineFeeds source) % 2 ^ 32)) ∧
    (∀ line character, run.failure = some (.unrecognizedCharacter line character) →
      ∃ before after : String, source = before ++ String.singleton character ++ after ∧
        Stray character ∧ tokenize before = .ok (run.tokens ++ [⟨.finish, line, ""⟩]) ∧
        line.toNat = (1 + lineFeeds before) % 2 ^ 32) ∧
    (∀ line, run.failure = some (.unterminatedString line) →
      line.toNat = (1 + lineFeeds source) % 2 ^ 32) ∧
    (lineFeeds source < 2 ^ 32 - 1 →
      run.tokens.Pairwise (fun earlier later => earlier.line ≤ later.line) ∧
      ∀ token ∈ run.tokens,
        (∀ last ∈ run.tokens, last.kind = .finish → token.line ≤ last.line) ∧
        ∀ error, run.failure = some error → token.line ≤ error.line) := by
  intro run emissions
  refine ⟨congrArg Run.tokens (Trace.run_ofString source), ?_,
    fun _ _ => Run.line_of_unrecognizedCharacter, fun _ => Run.line_of_unterminatedString, ?_⟩
  · intro emission membership
    rcases Trace.exists_place membership with
      ⟨front, rest, parts, sameSource, offset, sameLine, word⟩
    have counted : emission.token.line.toNat =
        (1 + lineFeeds (front ++ emission.token.lexeme)) % 2 ^ 32 := by
      rw [sameLine, toNat_lineAfter_one]
    refine ⟨front, rest, parts, sameSource, offset, counted, ?_, ?_, ?_⟩
    · intro isString
      rcases word with inGrammar | ⟨isFinish, _⟩
      · rw [isString] at inGrammar
        rcases exists_closing_quote inGrammar with ⟨body, quote, equality, isQuote, sameLines⟩
        refine ⟨body, quote, equality, isQuote, ?_⟩
        rw [counted, lineFeeds_append, lineFeeds_append, sameLines]
      · rw [isFinish] at isString
        cases isString
    · intro notString
      have inLine : lineFeeds emission.token.lexeme = 0 := by
        rcases word with inGrammar | ⟨_, empty, _⟩
        · exact lineFeeds_eq_zero inGrammar notString
        · rw [empty]
          rfl
      rw [counted, lineFeeds_append, inLine, Nat.add_zero]
    · intro isFinish
      rcases word with inGrammar | ⟨_, _, ended⟩
      · rw [isFinish] at inGrammar
        exact inGrammar.elim
      · rw [counted, parts, ended, String.append_empty]
  · intro bounded
    rcases Run.lines_le bounded with ⟨each, ordered⟩
    refine ⟨ordered, ?_⟩
    intro token membership
    have below := each token membership
    constructor
    · intro last isLast isFinish
      rwa [Run.line_of_finish isLast isFinish]
    · intro error failed
      rwa [show (Run.ofString source).failure = some error from failed] at below

end Tokenizer
