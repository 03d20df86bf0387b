import Mathlib.Data.List.Chain
import Tokenizer.Proofs.Scanner.Cut
import Tokenizer.Proofs.Tokenization.Layout

/-!
Texts made of given words.

White space between two words keeps them apart, behind a comment if it begins with a line
end. So words that are laid out with such white space are read back as they are.
-/

namespace Tokenizer

open Grammar

/-- A gap ends the token before it: only a line end does so for a comment. -/
def Parts (kind : Kind) (gap : List Char) : Prop :=
  kind = .comment → ∀ next ∈ gap.head?, LineEnd next

/-- White space around tokens that keeps them apart. -/
structure Spaced (segments : List Segment) (trailing : List Char) : Prop where
  blankGaps : ∀ segment ∈ segments, ∀ character ∈ segment.gap, Blank character
  blankTrailing : ∀ character ∈ trailing, Blank character
  between : segments.IsChain fun earlier later => later.gap ≠ [] ∧ Parts earlier.kind later.gap
  behind : ∀ last ∈ segments.getLast?, Parts last.kind trailing

namespace Spaced

variable {segment : Segment} {segments : List Segment} {trailing : List Char}

theorem tail (spaced : Spaced (segment :: segments) trailing) : Spaced segments trailing where
  blankGaps := (List.forall_mem_cons.mp spaced.blankGaps).2
  blankTrailing := spaced.blankTrailing
  between := spaced.between.tail
  behind := by
    intro last isLast
    apply spaced.behind
    rw [List.getLast?_cons, Option.mem_def.mp isLast]
    rfl

/-- What follows a token begins with white space that ends the token. -/
theorem parts_layout (spaced : Spaced (segment :: segments) trailing) {next : Char}
    (isNext : next ∈ (layout segments trailing).head?) :
    Blank next ∧ (segment.kind = .comment → LineEnd next) := by
  cases segments with
  | nil =>
      have isLast : segment ∈ [segment].getLast? := rfl
      refine ⟨spaced.blankTrailing next (List.mem_of_mem_head? isNext), ?_⟩
      intro isComment
      exact spaced.behind segment isLast isComment next isNext
  | cons following others =>
      have between := List.isChain_cons_cons.mp spaced.between
      rw [layout, List.head?_append_of_ne_nil _ between.1.1] at isNext
      have inGap := List.mem_of_mem_head? isNext
      refine ⟨spaced.blankGaps following (by simp) next inGap, ?_⟩
      intro isComment
      exact between.1.2 isComment next isNext

theorem munched (spaced : Spaced segments trailing)
    (words : ∀ segment ∈ segments, segment.lexeme ∈ segment.kind.grammar) :
    Munched segments trailing := by
  induction segments with
  | nil => exact spaced.blankTrailing
  | cons segment segments inductionHypothesis =>
      rw [List.forall_mem_cons] at words
      refine ⟨spaced.blankGaps segment (by simp), ?_, inductionHypothesis spaced.tail words.2⟩
      apply longestMatch_iff.mpr
      refine ⟨words.1, ?_⟩
      intro next isNext extended
      obtain ⟨blank, ends⟩ := spaced.parts_layout isNext
      obtain ⟨isComment, inLine⟩ := (extends_blank_iff blank words.1).mp extended
      exact inLine (ends isComment)

theorem exists_tokenize (spaced : Spaced segments trailing)
    (words : ∀ segment ∈ segments, segment.lexeme ∈ segment.kind.grammar) :
    ∃ tokens, tokenize (String.ofList (layout segments trailing)) = .ok tokens ∧
      tokens.map Token.pair = segments.map Segment.pair ++ [(.finish, "")] := by
  rcases (spaced.munched words).exists_scans 1 with ⟨marks, scans, pairs⟩
  have text : (String.ofList (layout segments trailing)).toList = layout segments trailing :=
    String.toList_ofList
  rw [← text] at scans
  refine ⟨_, tokenize_eq_ok_iff.mpr (Run.ofString_eq_iff.mpr ⟨marks, scans, rfl⟩), ?_⟩
  rw [List.map_map]
  exact pairs

end Spaced

/-- The tokens of a text before its `finish` are words of their kinds. -/
theorem mem_grammar_of_tokenize {source : String} {pairs : List (Kind × String)}
    {tokens : List Token} (succeeded : tokenize source = .ok tokens)
    (same : tokens.map Token.pair = pairs ++ [(.finish, "")]) :
    ∀ pair ∈ pairs, pair.2.toList ∈ pair.1.grammar := by
  rcases Run.ofString_eq_iff.mp (tokenize_eq_ok_iff.mp succeeded) with ⟨marks, scans, rfl⟩
  intro pair membership
  have samePairs : pairs = marks.dropLast.map fun mark => mark.1.pair := by
    have dropped := congrArg List.dropLast same
    rw [List.dropLast_concat, List.map_map, ← List.map_dropLast] at dropped
    exact dropped.symm
  rw [samePairs] at membership
  rcases List.mem_map.mp membership with ⟨mark, inMarks, rfl⟩
  exact scans.mem_grammar mark inMarks

/-- Words laid out with white space that keeps them apart are the tokens of the text. So the
white space of a text can be changed at will without any change to its kinds and lexemes. -/
theorem tokenize_undoes_layout (segments : List Segment) (trailing : List Char)
    (spaced : Spaced segments trailing) :
    ((∀ segment ∈ segments, segment.lexeme ∈ segment.kind.grammar) →
      ∃ tokens, tokenize (String.ofList (layout segments trailing)) = .ok tokens ∧
        tokens.map Token.pair = segments.map Segment.pair ++ [(.finish, "")]) ∧
    ∀ source others, tokenize source = .ok others →
      others.map Token.pair = segments.map Segment.pair ++ [(.finish, "")] →
      ∃ tokens, tokenize (String.ofList (layout segments trailing)) = .ok tokens ∧
        tokens.map Token.pair = others.map Token.pair := by
  refine ⟨spaced.exists_tokenize, ?_⟩
  intro source others succeeded same
  rw [same]
  apply spaced.exists_tokenize
  intro segment membership
  have inPairs : segment.pair ∈ segments.map Segment.pair := List.mem_map_of_mem membership
  have word := mem_grammar_of_tokenize succeeded same segment.pair inPairs
  rwa [Segment.pair, String.toList_ofList] at word

theorem tokenize_undoes_layout_behind_comment :
    let segments : List Segment :=
      [⟨[], .comment, ['#', '!']⟩, ⟨['\r', ' '], .string, ['"', '\\', '"', '\n', '"']⟩,
        ⟨['\t'], .operator, ['+']⟩]
    Spaced segments [' '] ∧
      (∀ segment ∈ segments, segment.lexeme ∈ segment.kind.grammar) ∧
      ∃ tokens, tokenize "#!\r \"\\\"\n\"\t+ " = .ok tokens ∧ tokens.map Token.pair =
        [(.comment, "#!"), (.string, "\"\\\"\n\""), (.operator, "+"), (.finish, "")] := by
  intro segments
  have spaced : Spaced segments [' '] := by
    constructor <;> simp [segments, Blank, LineEnd, Parts]
  have comment : ['#', '!'] ∈ Kind.comment.grammar :=
    mem_comment.mpr ⟨['!'], by simp [LineEnd], rfl⟩
  have string : ['"', '\\', '"', '\n', '"'] ∈ Kind.string.grammar := by
    refine mem_string.mpr ⟨'"', .inl rfl, mem_literal.mpr ⟨[['\\', '"'], ['\n']], ?_, rfl⟩⟩
    simp [BodyUnit]
  have operator : ['+'] ∈ Kind.operator.grammar :=
    mem_operator.mpr (.inl ⟨'+', by simp [Operator], rfl⟩)
  have words : ∀ segment ∈ segments, segment.lexeme ∈ segment.kind.grammar := by
    simp [segments, comment, string, operator]
  exact ⟨spaced, words, (tokenize_undoes_layout segments [' '] spaced).1 words⟩

end Tokenizer
