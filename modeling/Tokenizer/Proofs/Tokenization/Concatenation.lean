import Tokenizer.Proofs.Scanner.Cut

/-!
Texts on lines of their own.

A line feed ends every token, so the run over a text goes on behind it as if it began there,
only further down.
-/

namespace Tokenizer

open Grammar

/-- The token, so many lines further down. -/
def Token.down (lines : UInt32) (token : Token) : Token :=
  { token with line := token.line + lines }

/-- The error, so many lines further down. -/
def LexicalError.down (lines : UInt32) : LexicalError → LexicalError
  | .unterminatedString line => .unterminatedString (line + lines)
  | .unrecognizedCharacter line character => .unrecognizedCharacter (line + lines) character

def Mark.down (lines : UInt32) (mark : Mark) : Mark :=
  (mark.1.down lines, mark.2)

theorem Mark.map_fst_down (lines : UInt32) (marks : List Mark) :
    (marks.map (Mark.down lines)).map Prod.fst = (marks.map Prod.fst).map (Token.down lines) := by
  rw [List.map_map, List.map_map]
  rfl

/-- A scan that begins further down is the same scan further down. -/
theorem Scans.down {line : UInt32} {text : List Char} {marks : List Mark}
    {failure : Option LexicalError} (scans : Scans line text marks failure) (lines : UInt32) :
    Scans (line + lines) text (marks.map (Mark.down lines))
      (failure.map (LexicalError.down lines)) := by
  induction scans with
  | finish => exact .finish
  | blank blank _ inductionHypothesis =>
      apply Scans.blank blank
      rw [lineAfter_add]
      exact inductionHypothesis
  | stray stray => exact .stray stray
  | @unclosed line quote body isQuote noQuote =>
      have scans : Scans (line + lines) (quote :: body) [] _ := .unclosed isQuote noQuote
      rwa [lineAfter_add] at scans
  | @token line kind lexeme rest marks failure isLongest _ inductionHypothesis =>
      rw [← lineAfter_add] at inductionHypothesis
      have scans := Scans.token isLongest inductionHypothesis
      rwa [lineAfter_add] at scans

/-- No token goes on over a line feed. -/
theorem Scans.unextended_lineFeed {line : UInt32} {text : List Char} {marks : List Mark}
    (scans : Scans line text marks none) (tail : List Char) :
    Unextended marks.dropLast ('\n' :: tail) := by
  intro mark membership _ next isNext extended
  cases isNext
  have word := scans.mem_grammar mark membership
  have blank : Blank '\n' := .inr (.inr (.inl rfl))
  exact ((extends_blank_iff blank word).mp extended).2 (.inl rfl)

theorem Scans.append_line {line : UInt32} {text tail : List Char} {marks others : List Mark}
    {failure : Option LexicalError} (scans : Scans line text others none)
    (further : Scans (lineAfter line (text ++ ['\n'])) tail marks failure) :
    Scans line (text ++ '\n' :: tail)
      (others.dropLast.map (Mark.extend ('\n' :: tail)) ++ marks) failure := by
  apply scans.append (scans.unextended_lineFeed tail)
  rw [lineAfter_append] at further
  exact .blank (.inr (.inr (.inl rfl))) further

theorem lineAfter_line (text : String) :
    lineAfter 1 (text.toList ++ ['\n']) = 1 + UInt32.ofNat (1 + lineFeeds text) := by
  rw [lineAfter, List.count_append, Nat.add_comm]
  rfl

/-- A line feed between two texts joins their runs: the tokens of the first stay as they are,
without its `finish`, and the run over the second follows, as many lines further down as the
first text and the line feed have. -/
theorem Run.ofString_append_line (first second : String) (tokens : List Token) (last : Token)
    (succeeded : tokenize first = .ok (tokens ++ [last])) :
    let lines := UInt32.ofNat (1 + lineFeeds first)
    Run.ofString (first ++ "\n" ++ second) =
      ⟨tokens ++ (Run.ofString second).tokens.map (Token.down lines),
        (Run.ofString second).failure.map (LexicalError.down lines)⟩ := by
  intro lines
  rcases Run.ofString_eq_iff.mp (tokenize_eq_ok_iff.mp succeeded) with
    ⟨others, whole, sameTokens⟩
  rcases Run.exists_scans second with ⟨marks, scans, sameSecond⟩
  have further := scans.down lines
  rw [← lineAfter_line] at further
  have joined := whole.append_line further
  have text : (first ++ "\n" ++ second).toList = first.toList ++ '\n' :: second.toList := by
    simp
  rw [← text] at joined
  apply Run.ofString_eq_iff.mpr
  refine ⟨_, joined, ?_⟩
  have kept : others.dropLast.map Prod.fst = tokens := by
    rw [List.map_dropLast, sameTokens, List.dropLast_concat]
  rw [List.map_append, map_fst_extend, kept, Mark.map_fst_down, sameSecond]

theorem Run.ofString_append_line_at_backslash :
    tokenize "x\n\\" = .ok ([⟨.identifier, 1, "x"⟩, ⟨.operator, 2, "\\"⟩] ++ [⟨.finish, 2, ""⟩]) ∧
      Run.ofString "x\n\\\ny\n'" =
        ⟨[⟨.identifier, 1, "x"⟩, ⟨.operator, 2, "\\"⟩, ⟨.identifier, 3, "y"⟩],
          some (.unterminatedString 4)⟩ := by
  have succeeded : tokenize "x\n\\" =
      .ok ([⟨.identifier, 1, "x"⟩, ⟨.operator, 2, "\\"⟩] ++ [⟨.finish, 2, ""⟩]) := by
    decide +kernel
  refine ⟨succeeded, ?_⟩
  have joined := Run.ofString_append_line "x\n\\" "y\n'" _ _ succeeded
  have second : Run.ofString "y\n'" = ⟨[⟨.identifier, 1, "y"⟩], some (.unterminatedString 2)⟩ := by
    decide +kernel
  rw [second] at joined
  exact joined

end Tokenizer
