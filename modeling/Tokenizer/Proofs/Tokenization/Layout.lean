import Tokenizer.Proofs.Scanner.Scans

/-!
A tokenized text is laid out as its tokens with white space around them.

The main result says that a text has the tokens of a list exactly if it can be
cut into white space and the lexemes of that list, each of them the longest
match where it stands.
-/

namespace Tokenizer

open Grammar

/-- A token as it stands in a text, with the white space before it. -/
structure Segment where
  gap : List Char
  kind : Kind
  lexeme : List Char

def Segment.pair (segment : Segment) : Kind × String :=
  (segment.kind, String.ofList segment.lexeme)

def Token.pair (token : Token) : Kind × String :=
  (token.kind, token.lexeme)

/-- The text made of segments and of what stands after the last of them. -/
def layout : List Segment → List Char → List Char
  | [], trailing => trailing
  | segment :: segments, trailing => segment.gap ++ (segment.lexeme ++ layout segments trailing)

/-- Between the tokens stands only white space, and each lexeme is the longest
match in the text that begins with it. -/
def Munched : List Segment → List Char → Prop
  | [], trailing => ∀ character ∈ trailing, Blank character
  | segment :: segments, trailing =>
      (∀ character ∈ segment.gap, Blank character) ∧
        LongestMatch (segment.lexeme ++ layout segments trailing) segment.kind segment.lexeme ∧
        Munched segments trailing

/-- White space before a text becomes part of the first gap. -/
theorem exists_munched_cons {character : Char} (blank : Blank character) {segments : List Segment}
    {trailing : List Char} (munched : Munched segments trailing) :
    ∃ others otherTrailing, character :: layout segments trailing = layout others otherTrailing ∧
      Munched others otherTrailing ∧ others.map Segment.pair = segments.map Segment.pair := by
  cases segments with
  | nil => exact ⟨[], character :: trailing, rfl, List.forall_mem_cons.mpr ⟨blank, munched⟩, rfl⟩
  | cons segment segments =>
      refine ⟨{ segment with gap := character :: segment.gap } :: segments, trailing, rfl, ?_, rfl⟩
      exact ⟨List.forall_mem_cons.mpr ⟨blank, munched.1⟩, munched.2⟩

theorem Scans.exists_munched {line : UInt32} {text : List Char} {marks : List Mark}
    (scans : Scans line text marks none) :
    ∃ segments trailing, text = layout segments trailing ∧ Munched segments trailing ∧
      marks.map (fun mark => mark.1.pair) = segments.map Segment.pair ++ [(.finish, "")] := by
  generalize success : (none : Option LexicalError) = failure at scans
  induction scans with
  | finish => exact ⟨[], [], rfl, by simp [Munched], rfl⟩
  | blank blank _ inductionHypothesis =>
      rcases inductionHypothesis success with ⟨segments, trailing, rfl, munched, pairs⟩
      rcases exists_munched_cons blank munched with ⟨others, gap, equality, isMunched, same⟩
      exact ⟨others, gap, equality, isMunched, by rw [pairs, same]⟩
  | stray => cases success
  | unclosed => cases success
  | @token line kind lexeme rest marks failure isLongest _ inductionHypothesis =>
      rcases inductionHypothesis success with ⟨segments, trailing, rfl, munched, pairs⟩
      refine ⟨⟨[], kind, lexeme⟩ :: segments, trailing, rfl, ⟨by simp, isLongest, munched⟩, ?_⟩
      rw [List.map_cons, pairs]
      rfl

theorem Munched.exists_scans {segments : List Segment} {trailing : List Char}
    (munched : Munched segments trailing) (line : UInt32) :
    ∃ marks, Scans line (layout segments trailing) marks none ∧
      marks.map (fun mark => mark.1.pair) = segments.map Segment.pair ++ [(.finish, "")] := by
  induction segments generalizing line with
  | nil =>
      refine ⟨[(⟨.finish, lineAfter line trailing, ""⟩, [])], ?_, rfl⟩
      have ended : Scans (lineAfter line trailing) [] [(⟨.finish, _, ""⟩, [])] none := .finish
      have scans := ended.gap munched
      rwa [List.append_nil] at scans
  | cons segment segments inductionHypothesis =>
      obtain ⟨blank, isLongest, others⟩ := munched
      rcases inductionHypothesis others (lineAfter (lineAfter line segment.gap) segment.lexeme) with
        ⟨marks, scans, pairs⟩
      refine ⟨_, .gap blank (.token isLongest scans), ?_⟩
      rw [List.map_cons, pairs]
      rfl

/-- A text has the given kinds and lexemes, and then a `finish`, exactly if it
is laid out in longest matches of these kinds with white space around them. So
nothing but white space is dropped. The tokens of a text contain one `finish`,
the last of them, and no `dedent`. -/
theorem tokenize_succeeds_iff_longest_matches (source : String) (pairs : List (Kind × String)) :
    ((∃ tokens, tokenize source = .ok tokens ∧ tokens.map Token.pair = pairs) ↔
      ∃ segments trailing, source.toList = layout segments trailing ∧ Munched segments trailing ∧
        pairs = segments.map Segment.pair ++ [(.finish, "")]) ∧
    ∀ tokens, tokenize source = .ok tokens →
      (∀ token ∈ tokens, token.kind ≠ .dedent) ∧
        ∃ body last, tokens = body ++ [last] ∧ last.kind = .finish ∧
          ∀ token ∈ body, token.kind ≠ .finish := by
  refine ⟨⟨?_, ?_⟩, ?_⟩
  · rintro ⟨tokens, succeeded, rfl⟩
    rcases Run.ofString_eq_iff.mp (tokenize_eq_ok_iff.mp succeeded) with ⟨marks, scans, rfl⟩
    rcases scans.exists_munched with ⟨segments, trailing, equality, munched, pairs⟩
    exact ⟨segments, trailing, equality, munched, by rw [List.map_map]; exact pairs⟩
  · rintro ⟨segments, trailing, equality, munched, rfl⟩
    rcases munched.exists_scans 1 with ⟨marks, scans, pairs⟩
    rw [← equality] at scans
    refine ⟨_, tokenize_eq_ok_iff.mpr (Run.ofString_eq_iff.mpr ⟨marks, scans, rfl⟩), ?_⟩
    rw [List.map_map]
    exact pairs
  · intro tokens succeeded
    have whole := tokenize_eq_ok_iff.mp succeeded
    rcases Run.kinds_ofString source with ⟨body, proper, ends, _⟩
    rw [whole] at ends
    obtain rfl : tokens = body ++ [_] := ends rfl
    refine ⟨?_, body, _, rfl, rfl, fun token membership => (proper token membership).2⟩
    intro token membership
    rw [List.mem_append, List.mem_singleton] at membership
    rcases membership with inBody | rfl
    · exact (proper token inBody).1
    · simp

end Tokenizer
