import Tokenizer.Proofs.Scanner.Scans

/-!
Scans of a text that is cut in two.

A cut changes nothing as long as the token that reaches it, if there is one,
does not go on behind it. So a failing run splits where it stops: what stands
before that place is a text without failure of its own.
-/

namespace Tokenizer

open Grammar

/-- The same token in a text that goes on with a tail. -/
def Mark.extend (tail : List Char) (mark : Mark) : Mark :=
  (mark.1, mark.2 ++ tail)

/-- No token that reaches the end of its text goes on with the tail. -/
def Unextended (marks : List Mark) (tail : List Char) : Prop :=
  ∀ mark ∈ marks, mark.2 = [] → ∀ next ∈ tail.head?, ¬ Extends mark.1.lexeme.toList next

theorem map_fst_extend (tail : List Char) (marks : List Mark) :
    (marks.map (Mark.extend tail)).map Prod.fst = marks.map Prod.fst :=
  List.map_map

theorem map_extend_extend (tail more : List Char) (marks : List Mark) :
    (marks.map (Mark.extend tail)).map (Mark.extend more) =
      marks.map (Mark.extend (tail ++ more)) := by
  simp [Mark.extend, Function.comp_def]

namespace Scans

variable {line : UInt32} {text before tail : List Char} {marks others : List Mark}
  {failure : Option LexicalError}

theorem eq_dropLast_append (scans : Scans line text marks none) :
    marks = marks.dropLast ++ [(⟨.finish, lineAfter line text, ""⟩, [])] := by
  rcases scans.kinds with ⟨body, _, ends, _⟩
  rw [ends rfl, List.dropLast_concat]

theorem ne_nil (scans : Scans line text marks none) : marks ≠ [] := by
  rw [scans.eq_dropLast_append]
  simp

theorem mem_grammar (scans : Scans line text marks none) :
    ∀ mark ∈ marks.dropLast, mark.1.lexeme.toList ∈ mark.1.kind.grammar := by
  generalize success : (none : Option LexicalError) = failure at scans
  induction scans with
  | finish => simp
  | blank _ _ inductionHypothesis => exact inductionHypothesis success
  | stray => cases success
  | unclosed => cases success
  | token isLongest scans inductionHypothesis =>
      subst success
      rw [List.dropLast_cons_of_ne_nil scans.ne_nil, List.forall_mem_cons]
      refine ⟨?_, inductionHypothesis rfl⟩
      rw [String.toList_ofList]
      exact isLongest.membership

/-- Only the last token before the `finish` can reach the end of the text. -/
theorem getLast?_of_rest_nil (scans : Scans line text marks none) {mark : Mark}
    (membership : mark ∈ marks.dropLast) (atEnd : mark.2 = []) :
    marks.dropLast.getLast? = some mark := by
  generalize success : (none : Option LexicalError) = failure at scans
  induction scans with
  | finish => cases membership
  | blank _ _ inductionHypothesis => exact inductionHypothesis membership success
  | stray => cases success
  | unclosed => cases success
  | @token line kind lexeme rest marks failure isLongest scans inductionHypothesis =>
      subst success
      rw [List.dropLast_cons_of_ne_nil scans.ne_nil] at membership ⊢
      rcases List.mem_cons.mp membership with rfl | inTail
      · obtain rfl : rest = [] := atEnd
        obtain ⟨rfl, _⟩ := scans.unique .finish
        rfl
      · have isLast := inductionHypothesis inTail rfl
        rw [List.getLast?_cons, isLast]
        rfl

theorem append (scans : Scans line before others none)
    (unextended : Unextended others.dropLast tail)
    (further : Scans (lineAfter line before) tail marks failure) :
    Scans line (before ++ tail) (others.dropLast.map (Mark.extend tail) ++ marks) failure := by
  generalize success : (none : Option LexicalError) = outcome at scans
  induction scans with
  | finish => simpa using further
  | blank blank _ inductionHypothesis =>
      rw [← List.singleton_append, lineAfter_append] at further
      exact .blank blank (inductionHypothesis unextended further success)
  | stray => cases success
  | unclosed => cases success
  | token isLongest scans inductionHypothesis =>
      subst success
      rw [List.dropLast_cons_of_ne_nil scans.ne_nil] at unextended ⊢
      obtain ⟨here, elsewhere⟩ := List.forall_mem_cons.mp unextended
      rw [String.toList_ofList] at here
      rw [lineAfter_append] at further
      rw [List.append_assoc]
      exact .token (longestMatch_append_iff.mpr ⟨isLongest, here⟩)
        (inductionHypothesis elsewhere further rfl)

/-- A cut behind the token that follows is a cut behind the first one too. -/
theorem cut_token {kind : Kind} {lexeme : List Char}
    (isLongest : LongestMatch (lexeme ++ (before ++ tail)) kind lexeme)
    (whole : Scans (lineAfter line lexeme) before others none)
    (unextended : Unextended others.dropLast tail) :
    ∃ more, Scans line (lexeme ++ before) more none ∧ Unextended more.dropLast tail ∧
      more.dropLast.map (Mark.extend tail) =
        (⟨kind, lineAfter line lexeme, String.ofList lexeme⟩, before ++ tail) ::
          others.dropLast.map (Mark.extend tail) := by
  obtain ⟨stillLongest, here⟩ := longestMatch_append_iff.mp isLongest
  refine ⟨_, .token stillLongest whole, ?_, ?_⟩
  · rw [List.dropLast_cons_of_ne_nil whole.ne_nil]
    refine List.forall_mem_cons.mpr ⟨?_, unextended⟩
    rwa [String.toList_ofList]
  · rw [List.dropLast_cons_of_ne_nil whole.ne_nil]
    rfl

/-- A scan can be cut before any of its tokens. -/
theorem exists_cut {mark : Mark} (scans : Scans line text (others ++ mark :: marks) failure) :
    ∃ before tail first, text = before ++ tail ∧ Scans line before first none ∧
      Unextended first.dropLast tail ∧
      Scans (lineAfter line before) tail (mark :: marks) failure ∧
      others = first.dropLast.map (Mark.extend tail) := by
  -- Nothing is cut off in front of the first token.
  have uncut : ∀ {line text}, Scans line text (mark :: marks) failure →
      ∃ before tail first, text = before ++ tail ∧ Scans line before first none ∧
        Unextended first.dropLast tail ∧
        Scans (lineAfter line before) tail (mark :: marks) failure ∧
        [] = first.dropLast.map (Mark.extend tail) := by
    intro line text scans
    rw [← lineAfter_nil line] at scans
    exact ⟨[], text, _, rfl, .finish, by simp [Unextended], scans, rfl⟩
  generalize split : others ++ mark :: marks = all at scans
  induction scans generalizing others with
  | finish =>
      obtain ⟨rfl, sameMark⟩ := List.append_eq_singleton_iff.mp split |>.resolve_right (by simp)
      cases sameMark
      exact uncut .finish
  | @blank line character rest all failure blank _ inductionHypothesis =>
      rcases inductionHypothesis uncut split with
        ⟨before, tail, first, rfl, whole, unextended, scans, sameMarks⟩
      refine ⟨character :: before, tail, first, rfl, .blank blank whole, unextended, ?_, sameMarks⟩
      rwa [← List.singleton_append, lineAfter_append]
  | stray => simp at split
  | unclosed => simp at split
  | token isLongest scans inductionHypothesis =>
      cases others with
      | nil =>
          cases split
          exact uncut (.token isLongest scans)
      | cons other others =>
          cases split
          rcases inductionHypothesis uncut rfl with
            ⟨before, tail, first, rfl, whole, unextended, scans, rfl⟩
          rcases cut_token isLongest whole unextended with ⟨more, wholeMore, stillUnextended, same⟩
          refine ⟨_, tail, more, by simp, wholeMore, stillUnextended, ?_, same.symm⟩
          rwa [lineAfter_append]

end Scans

/-! ### Where a run stops -/

/-- The run over a text, begun on the given line, fails before its first token. -/
inductive Stops : UInt32 → List Char → LexicalError → Prop where
  | stray {line character rest} : Stray character →
      Stops line (character :: rest) (.unrecognizedCharacter line character)
  | unclosed {line quote body} : Quote quote → [quote] ∉ units body →
      Stops line (quote :: body) (.unterminatedString (lineAfter line (quote :: body)))

theorem Stops.scans {line : UInt32} {text : List Char} {error : LexicalError}
    (stops : Stops line text error) : Scans line text [] (some error) := by
  cases stops with
  | stray stray => exact .stray stray
  | unclosed isQuote noQuote => exact .unclosed isQuote noQuote

theorem Scans.exists_stop {line : UInt32} {text : List Char} {marks : List Mark}
    {error : LexicalError} (scans : Scans line text marks (some error)) :
    ∃ before tail others, text = before ++ tail ∧ Scans line before others none ∧
      Unextended others.dropLast tail ∧ Stops (lineAfter line before) tail error ∧
      marks = others.dropLast.map (Mark.extend tail) := by
  generalize failing : some error = failure at scans
  induction scans with
  | finish => cases failing
  | @blank line character rest marks failure blank _ inductionHypothesis =>
      rcases inductionHypothesis failing with
        ⟨before, tail, others, rfl, whole, unextended, stops, marksEquality⟩
      refine ⟨character :: before, tail, others, rfl, .blank blank whole, unextended, ?_,
        marksEquality⟩
      rwa [← List.singleton_append, lineAfter_append]
  | @stray line character rest stray =>
      cases failing
      refine ⟨[], character :: rest, _, rfl, .finish, by simp [Unextended], ?_, rfl⟩
      rw [lineAfter_nil]
      exact .stray stray
  | @unclosed line quote body isQuote noQuote =>
      cases failing
      refine ⟨[], quote :: body, _, rfl, .finish, by simp [Unextended], ?_, rfl⟩
      rw [lineAfter_nil]
      exact .unclosed isQuote noQuote
  | @token line kind lexeme rest marks failure isLongest _ inductionHypothesis =>
      rcases inductionHypothesis failing with
        ⟨before, tail, others, rfl, whole, unextended, stops, rfl⟩
      rcases Scans.cut_token isLongest whole unextended with
        ⟨more, wholeMore, stillUnextended, same⟩
      refine ⟨_, tail, more, by simp, wholeMore, stillUnextended, ?_, same.symm⟩
      rwa [lineAfter_append]

/-- A run fails exactly if it reads some text whole and then stops. -/
theorem scans_some_iff {line : UInt32} {text : List Char} {marks : List Mark}
    {error : LexicalError} :
    Scans line text marks (some error) ↔
      ∃ before tail others, text = before ++ tail ∧ Scans line before others none ∧
        Unextended others.dropLast tail ∧ Stops (lineAfter line before) tail error ∧
        marks = others.dropLast.map (Mark.extend tail) := by
  constructor
  · exact Scans.exists_stop
  · rintro ⟨before, tail, others, rfl, whole, unextended, stops, rfl⟩
    simpa using whole.append unextended stops.scans

end Tokenizer
