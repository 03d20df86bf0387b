import Tokenizer.Proofs.Tokenization.Concatenation
import Tokenizer.Proofs.Tokenization.Failure

/-!
Texts that go on.

Only the last token of a text can be changed by what follows the text, and only if nothing
stands between them: it may become longer. A run that has failed has emitted its tokens for
good, though a literal that was open may be closed by what follows.
-/

namespace Tokenizer

open Grammar

/-- The tokens that a run has read from its source. The `finish` stands for its end. -/
def Run.words (run : Run) : List Token :=
  run.tokens.filter fun token => !token.isFinish

/-- The scan of a text whatever line it begins on. -/
theorem Scans.total (line : UInt32) (text : List Char) :
    ∃ marks failure, Scans line text marks failure := by
  rcases Run.exists_scans (String.ofList text) with ⟨marks, scans, _⟩
  have moved := scans.down (line - 1)
  rw [UInt32.add_comm, UInt32.sub_add_cancel, String.toList_ofList] at moved
  exact ⟨_, _, moved⟩

theorem Unextended.append {marks : List Mark} {tail : List Char}
    (unextended : Unextended marks tail) (nonempty : tail ≠ []) (more : List Char) :
    Unextended marks (tail ++ more) := by
  intro mark membership atEnd next isNext
  rw [List.head?_append_of_ne_nil tail nonempty] at isNext
  exact unextended mark membership atEnd next isNext

theorem Stops.ne_nil {line : UInt32} {text : List Char} {error : LexicalError}
    (stops : Stops line text error) : text ≠ [] := by
  cases stops <;> simp

namespace Scans

variable {line : UInt32} {text : List Char} {marks : List Mark} {failure : Option LexicalError}

/-! ### Failing runs -/

/-- What a failing run has emitted stays. -/
theorem append_of_failed {error : LexicalError} (scans : Scans line text marks (some error))
    (more : List Char) :
    ∃ others otherFailure, Scans line (text ++ more)
      (marks.map (Mark.extend more) ++ others) otherFailure := by
  rcases scans.exists_stop with ⟨before, tail, first, rfl, whole, unextended, stops, rfl⟩
  rcases Scans.total (lineAfter line before) (tail ++ more) with ⟨others, otherFailure, further⟩
  have joined := whole.append (unextended.append stops.ne_nil more) further
  refine ⟨others, otherFailure, ?_⟩
  rwa [map_extend_extend, List.append_assoc before]

/-- Nothing gets a run past a stray character. -/
theorem append_of_stray {errorLine : UInt32} {character : Char}
    (scans : Scans line text marks (some (.unrecognizedCharacter errorLine character)))
    (more : List Char) :
    Scans line (text ++ more) (marks.map (Mark.extend more))
      (some (.unrecognizedCharacter errorLine character)) := by
  rcases scans.exists_stop with ⟨before, tail, first, rfl, whole, unextended, stops, rfl⟩
  have stopsStill : Stops (lineAfter line before) (tail ++ more)
      (.unrecognizedCharacter errorLine character) := by
    cases stops with
    | stray stray => exact .stray stray
  have joined := whole.append (unextended.append stops.ne_nil more) stopsStill.scans
  rwa [map_extend_extend, List.append_assoc before, ← List.append_nil (List.map _ _)]

/-! ### The last token -/

/-- The token with which a scan begins stays the first one, though it may become longer if
the text ends with it. -/
theorem append_of_cons {mark : Mark} (scans : Scans line text (mark :: marks) failure)
    (isWord : mark.1.kind ≠ .finish) (more : List Char) :
    ∃ other others otherFailure, Scans line (text ++ more) (other :: others) otherFailure ∧
      (∃ tail, other.1.lexeme = mark.1.lexeme ++ tail) ∧
      (other.1.kind = mark.1.kind ∨ mark.1.kind = .integer ∧ other.1.kind = .real) ∧
      (mark.2 ≠ [] → other.1 = mark.1) := by
  generalize split : mark :: marks = all at scans
  induction scans with
  | finish =>
      cases split
      exact absurd rfl isWord
  | blank blank _ inductionHypothesis =>
      rcases inductionHypothesis split with ⟨other, others, otherFailure, further, same⟩
      exact ⟨other, others, otherFailure, .blank blank further, same⟩
  | stray => cases split
  | unclosed => cases split
  | @token line kind lexeme rest marks failure isLongest _ _ =>
      cases split
      rcases exists_longestMatch isLongest.membership (rest ++ more) with
        ⟨otherKind, extra, behind, parts, otherLongest⟩
      rcases Scans.total (lineAfter line (lexeme ++ extra)) behind with
        ⟨others, otherFailure, further⟩
      have scans := Scans.token otherLongest further
      have regrouped : lexeme ++ rest ++ more = lexeme ++ extra ++ behind := by
        rw [List.append_assoc, parts, List.append_assoc]
      rw [← regrouped] at scans
      refine ⟨_, others, otherFailure, scans, ⟨String.ofList extra, ?_⟩, ?_, ?_⟩
      · exact String.ofList_append
      · exact kind_of_longer isLongest.membership otherLongest.membership
      · intro inside
        have unchanged : LongestMatch (lexeme ++ (rest ++ more)) kind lexeme :=
          longestMatch_append_iff.mpr ⟨isLongest, fun atEnd => absurd atEnd inside⟩
        rw [parts, ← List.append_assoc] at unchanged
        obtain ⟨rfl, sameLexeme⟩ := otherLongest.unique unchanged
        rw [sameLexeme]

/-- A longer text has the same tokens up to the last, and in its place the same token or one
that begins with it. -/
theorem append_of_last {others : List Mark} {mark : Mark} (scans : Scans line text marks none)
    (ends : marks.dropLast = others ++ [mark]) (isWord : mark.1.kind ≠ .finish)
    (more : List Char) :
    ∃ other behind otherFailure,
      Scans line (text ++ more) (others.map (Mark.extend more) ++ other :: behind) otherFailure ∧
      (∃ tail, other.1.lexeme = mark.1.lexeme ++ tail) ∧
      (other.1.kind = mark.1.kind ∨ mark.1.kind = .integer ∧ other.1.kind = .real) ∧
      (mark.2 ≠ [] → other.1 = mark.1) := by
  rw [scans.eq_dropLast_append, ends, List.append_assoc, List.singleton_append] at scans
  rcases scans.exists_cut with ⟨before, tail, first, rfl, whole, unextended, cut, rfl⟩
  have nonempty : tail ≠ [] := by
    rintro rfl
    exact absurd (cut.unique .finish).1 (by simp)
  rcases cut.append_of_cons isWord more with ⟨other, behind, otherFailure, further, same⟩
  have joined := whole.append (unextended.append nonempty more) further
  refine ⟨other, behind, otherFailure, ?_, same⟩
  rwa [map_extend_extend, List.append_assoc before]

end Scans

/-! ### The words of a run -/

namespace Run

variable {source : String} {marks : List Mark}

theorem words_of_scans {failure : Option LexicalError}
    (scans : Scans 1 source.toList marks failure) :
    (ofString source).words = (marks.map Prod.fst).filter fun token => !token.isFinish := by
  rw [words, ofString_eq_iff.mpr ⟨marks, scans, rfl⟩]

theorem kind_ne_finish (scans : Scans 1 source.toList marks none) :
    ∀ mark ∈ marks.dropLast, mark.1.kind ≠ .finish := by
  intro mark membership isFinish
  have word := scans.mem_grammar mark membership
  rw [isFinish] at word
  exact word

/-- Tokens other than a `finish` are words. -/
theorem filter_words {others : List Mark} (proper : ∀ mark ∈ others, mark.1.kind ≠ .finish) :
    (others.map Prod.fst).filter (fun token => !token.isFinish) = others.map Prod.fst := by
  apply List.filter_eq_self.mpr
  intro token membership
  rcases List.mem_map.mp membership with ⟨mark, inOthers, rfl⟩
  simpa [Token.isFinish] using proper mark inOthers

theorem words_of_success (scans : Scans 1 source.toList marks none) :
    (ofString source).words = marks.dropLast.map Prod.fst := by
  rw [words_of_scans scans, ← filter_words (kind_ne_finish scans)]
  conv_lhs => rw [scans.eq_dropLast_append]
  rw [List.map_append, List.filter_append]
  exact List.append_nil _

theorem words_prefix_of_failed {error : LexicalError}
    (scans : Scans 1 source.toList marks (some error)) (more : String) :
    (ofString source).words <+: (ofString (source ++ more)).words := by
  rcases scans.append_of_failed more.toList with ⟨others, otherFailure, further⟩
  rw [← String.toList_append] at further
  rw [words_of_scans scans, words_of_scans further, List.map_append, List.filter_append,
    map_fst_extend]
  exact List.prefix_append _ _

theorem ofString_append_of_stray {line : UInt32} {character : Char}
    (scans : Scans 1 source.toList marks (some (.unrecognizedCharacter line character)))
    (more : String) : ofString (source ++ more) = ofString source := by
  have further := scans.append_of_stray more.toList
  rw [← String.toList_append] at further
  rw [ofString_eq_iff.mpr ⟨_, scans, rfl⟩]
  exact ofString_eq_iff.mpr ⟨_, further, map_fst_extend _ _⟩

theorem exists_disturbed {others : List Token} {last : Token}
    (scans : Scans 1 source.toList marks none)
    (ends : (ofString source).words = others ++ [last]) (more : String) :
    ∃ disturbed further, (ofString (source ++ more)).words = others ++ disturbed :: further ∧
      (∃ tail, disturbed.lexeme = last.lexeme ++ tail) ∧
      (disturbed.kind = last.kind ∨ last.kind = .integer ∧ disturbed.kind = .real) ∧
      (¬ EndsWith source last.kind → disturbed = last) := by
  rw [words_of_success scans] at ends
  obtain ⟨otherMarks, lastMarks, parts, rfl, isLast⟩ := List.map_eq_append_iff.mp ends
  obtain ⟨mark, rfl, rfl⟩ := List.map_eq_singleton_iff.mp isLast
  have proper := kind_ne_finish scans
  rw [parts, List.forall_mem_append, List.forall_mem_singleton] at proper
  rcases scans.append_of_last parts proper.2 more.toList with
    ⟨other, behind, failure, further, longer, kinds, same⟩
  rw [← String.toList_append] at further
  have otherIsWord : other.1.kind ≠ .finish := by
    rcases kinds with sameKind | ⟨_, isReal⟩
    · rw [sameKind]
      exact proper.2
    · simp [isReal]
  refine ⟨other.1, (behind.map Prod.fst).filter fun token => !token.isFinish, ?_, longer, kinds,
    ?_⟩
  · rw [words_of_scans further, List.map_append, List.filter_append, map_fst_extend,
      filter_words proper.1, List.map_cons, List.filter_cons_of_pos]
    simpa [Token.isFinish] using otherIsWord
  · intro endsElsewhere
    apply same
    intro atEnd
    apply endsElsewhere
    refine (endsWith_iff scans).mpr ⟨mark, ?_, rfl, atEnd⟩
    rw [parts]
    exact List.mem_append_right _ (List.mem_singleton_self mark)

/-- What is put behind a text disturbs at most its last word. -/
theorem ofString_append_disturbs_last (source more : String) :
    let run := ofString source
    let longer := ofString (source ++ more)
    (run.failure ≠ none → run.words <+: longer.words) ∧
    (∀ line character, run.failure = some (.unrecognizedCharacter line character) →
      longer = run) ∧
    ∀ others last, run.failure = none → run.words = others ++ [last] →
      ∃ disturbed further, longer.words = others ++ disturbed :: further ∧
        (∃ tail, disturbed.lexeme = last.lexeme ++ tail) ∧
        (disturbed.kind = last.kind ∨ last.kind = .integer ∧ disturbed.kind = .real) ∧
        (¬ EndsWith source last.kind → disturbed = last) := by
  intro run longer
  rcases exists_scans source with ⟨marks, scans, _⟩
  refine ⟨?_, ?_, ?_⟩
  · intro failed
    rcases Option.ne_none_iff_exists'.mp failed with ⟨error, isError⟩
    rw [isError] at scans
    exact words_prefix_of_failed scans more
  · intro line character failed
    rw [failed] at scans
    exact ofString_append_of_stray scans more
  · intro others last succeeded ends
    rw [succeeded] at scans
    exact exists_disturbed scans ends more

end Run

end Tokenizer
