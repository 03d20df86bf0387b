import Tokenizer.Proofs.Scanner.Relocation
import Tokenizer.Proofs.Scanner.Step

/-!
String literals.

The state that reads the body of a literal takes the text in units and stops behind the first
one that is the quote. So a text in which every backslash and every quote has a backslash in
front of it is read back as it was written, between the two quotes.
-/

namespace Tokenizer

open Grammar

namespace State

variable {cursor : Cursor} {quote : Char}

/-- A quote among the units closes the literal, and the first one does. -/
theorem exists_closeString (plain : quote ≠ '\\') (occurs : [quote] ∈ units cursor.rest) :
    ∃ last body, closeString quote cursor = .ok last ∧ [quote] ∉ body ∧
      units cursor.rest = body ++ [quote] :: units last.rest ∧
      Cursor.Reads cursor (body.flatten ++ [quote]) last := by
  rcases closeString_spec quote cursor with
    ⟨last, body, closed, _, each, reads⟩ | ⟨_, _, noQuote, _⟩
  · refine ⟨last, body, closed, quote_not_mem_body each, ?_, reads⟩
    rw [reads.rest, List.append_assoc, List.singleton_append, units_append each, units_cons plain]
  · exact absurd occurs (noQuote plain)

theorem exists_closeString_error (never : quote = '\\' ∨ [quote] ∉ units cursor.rest) :
    ∃ last, closeString quote cursor = .error last ∧ last.rest = [] ∧
      Cursor.Reads cursor cursor.rest last := by
  rcases closeString_spec quote cursor with
    ⟨last, body, _, plain, each, reads⟩ | ⟨last, unclosed, _, reads, ended⟩
  · -- Had the literal been closed, the quote would be among the units.
    have occurs : [quote] ∈ units cursor.rest := by
      rw [reads.rest, List.append_assoc, List.singleton_append, units_append each,
        units_cons plain]
      simp
    exact absurd never (not_or.mpr ⟨plain, not_not.mpr occurs⟩)
  · exact ⟨last, unclosed, ended, reads⟩

end State

/-! ### Written literals -/

namespace Grammar

/-- A character as it stands in a literal: with a backslash if it would not stand for itself. -/
def escapeWithin (quote character : Char) : List Char :=
  if character = '\\' ∨ character = quote then ['\\', character] else [character]

/-- A text with a backslash before each character that needs one. -/
def escaped (quote : Char) (text : String) : String :=
  String.ofList (text.toList.flatMap (escapeWithin quote))

def writeLiteral (quote : Char) (text : String) : String :=
  String.singleton quote ++ escaped quote text ++ String.singleton quote

theorem bodyUnit_escapeWithin (quote character : Char) :
    BodyUnit quote (escapeWithin quote character) := by
  rw [escapeWithin]
  split
  · exact .inr ⟨character, rfl⟩
  · next plain => exact .inl ⟨character, not_or.mp plain, rfl⟩

theorem writeLiteral_mem {quote : Char} (isQuote : Quote quote) (text : String) :
    (writeLiteral quote text).toList ∈ Kind.string.grammar := by
  refine mem_string.mpr ⟨quote, isQuote, mem_literal.mpr ?_⟩
  refine ⟨text.toList.map (escapeWithin quote), ?_, ?_⟩
  · intro unit membership
    rcases List.mem_map.mp membership with ⟨character, _, rfl⟩
    exact bodyUnit_escapeWithin quote character
  · simp [writeLiteral, escaped, List.flatMap_def]

end Grammar

/-- A word that nothing extends is the first token of a text that begins with it, and the run
goes on behind it. -/
theorem Run.ofString_append_word {kind : Kind} {word after : String}
    (isLongest : LongestMatch (word.toList ++ after.toList) kind word.toList) :
    ofString (word ++ after) =
      ((ofString after).down (UInt32.ofNat (lineFeeds word))).emit
        (some ⟨kind, lineAfter 1 word.toList, word⟩) := by
  rcases exists_scans after with ⟨marks, scans, sameTokens⟩
  have moved := scans.down (UInt32.ofNat (lineFeeds word))
  have whole := Scans.token isLongest moved
  rw [← String.toList_append] at whole
  rw [ofString_eq_iff.mpr ⟨_, whole, rfl⟩, emit, down, List.map_cons, Mark.map_fst_down,
    sameTokens, String.ofList_toList]
  rfl

/-- The state of a literal reads through the first unit that is the quote, and the token is all
that has been pending. If there is no such unit, or if the quote is a backslash, it fails at the
end of the input with the token still pending. So what a literal is written for, with any text
behind it, is read as one token. -/
theorem string_step_reads_units (cursor : Cursor) (quote : Char) :
    let step := (State.string quote).step cursor
    step.cursor.source = cursor.source ∧
    (quote ≠ '\\' → [quote] ∈ units cursor.rest →
      ∃ body token,
        units cursor.rest = body ++ [quote] :: units step.cursor.rest ∧ [quote] ∉ body ∧
        step.cursor.position.offset.byteIdx =
          cursor.position.offset.byteIdx + byteLength (body.flatten ++ [quote]) ∧
        step.Completes cursor token ∧ token.kind = .string ∧
        step.outcome = .ok (if step.cursor.isAtEnd then .exhausted else .next .start)) ∧
    (quote = '\\' ∨ [quote] ∉ units cursor.rest →
      step.emitted = none ∧
      step.outcome = .error (.unterminatedString (lineAfter cursor.line cursor.rest)) ∧
      step.cursor.start.offset.byteIdx = cursor.start.offset.byteIdx ∧
      step.cursor.position.offset.byteIdx = cursor.source.utf8ByteSize) ∧
    ∀ text after : String, Quote quote →
      let written := writeLiteral quote text
      let lines := UInt32.ofNat (lineFeeds written)
      Run.ofString (written ++ after) =
        ((Run.ofString after).down lines).emit (some ⟨.string, 1 + lines, written⟩) := by
  intro step
  have sameSource : step.cursor.source = cursor.source := State.source_step _ cursor
  refine ⟨sameSource, ?_, ?_, ?_⟩
  · intro plain occurs
    rcases State.exists_closeString plain occurs with ⟨last, body, closed, first, parts, reads⟩
    have stepped : step = .complete .string last := by
      simp only [step, State.step, State.stepString, closed]
    rw [stepped] at sameSource ⊢
    -- To complete a token moves the start, but not the position.
    have behind : (Step.complete .string last).cursor.rest = last.rest := last.rest_resetStart
    refine ⟨body, last.token .string, ?_, first, reads.offset_position_eq, ?_, rfl, rfl⟩
    · rw [behind, parts]
    · exact Step.completes_complete .string reads sameSource
  · intro never
    rcases State.exists_closeString_error never with ⟨last, unclosed, ended, reads⟩
    have stepped : step = .silent last (.error (.unterminatedString last.line)) := by
      simp only [step, State.step, State.stepString, unclosed]
    rw [stepped] at sameSource ⊢
    refine ⟨rfl, ?_, reads.offset_start_eq, ?_⟩
    · rw [Step.silent, reads.line]
    · have whole := last.offset_position_add
      rw [ended] at whole
      rw [← sameSource]
      exact whole
  · intro text after isQuote written lines
    apply Run.ofString_append_word
    apply longestMatch_iff.mpr
    have membership := writeLiteral_mem isQuote text
    refine ⟨membership, ?_⟩
    intro next _ extended
    exact (extends_iff membership).mp extended

end Tokenizer
