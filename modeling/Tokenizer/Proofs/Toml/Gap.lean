import Tokenizer.Proofs.Toml.Grammar
import Tokenizer.Toml.Blank

/-!
What the reader skips between the parts of a document.

It skips everything that may stand there, and stops at the first character that may not.
-/

namespace Tokenizer.Toml

variable {character : Char} {front gap ending comment text rest : List Char}

/-! ### Blanks -/

theorem isBlank_iff (character : Char) :
    isBlank character = true ↔ character = ' ' ∨ character = '\t' := by
  simp [isBlank]

theorem isTextCharacter_iff (character : Char) :
    isTextCharacter character = true ↔ Printable character := by
  simp [isTextCharacter, Printable]

theorem printable_of_all {text : List Char} (all : text.all isTextCharacter = true) :
    ∀ character ∈ text, Printable character :=
  fun character membership =>
    (isTextCharacter_iff character).mp (List.all_eq_true.mp all character membership)

/-- Whether a character is neither a blank nor a part of a line end, and begins no comment. -/
def Solid (character : Char) : Prop :=
  character ∉ [' ', '\t', '\n', '\r', '#']

theorem not_isBlank_of_solid (solid : Solid character) : isBlank character = false := by
  rw [Bool.eq_false_iff, ne_eq, isBlank_iff]
  rintro (rfl | rfl) <;> simp [Solid] at solid

theorem skipBlanks_append (blanks : Blanks front) (rest : List Char) :
    skipBlanks (front ++ rest) = skipBlanks rest :=
  List.dropWhile_append_of_pos fun character membership =>
    (isBlank_iff character).mpr (blanks character membership)

theorem skipBlanks_of_solid (solid : Solid character) (rest : List Char) :
    skipBlanks (character :: rest) = character :: rest := by
  rw [skipBlanks, List.dropWhile_cons_of_neg (by simp [not_isBlank_of_solid solid])]

/-! ### Line ends -/

theorem newline?_append (isEnd : LineEnd ending) (rest : List Char) :
    newline? (ending ++ rest) = some rest := by
  rcases isEnd with rfl | rfl <;> rfl

theorem exists_of_newline? (found : newline? text = some rest) :
    ∃ ending, LineEnd ending ∧ text = ending ++ rest := by
  unfold newline? at found
  split at found
  · cases found
    exact ⟨_, .inl rfl, rfl⟩
  · cases found
    exact ⟨_, .inr rfl, rfl⟩
  · cases found

theorem exists_of_lineEnd (isEnd : LineEnd ending) :
    ∃ character others, ending = character :: others ∧ character ∈ ['\n', '\r'] := by
  rcases isEnd with rfl | rfl <;> exact ⟨_, _, rfl, by simp⟩

theorem newline?_of_not_mem (noLineEnd : character ∉ ['\n', '\r']) (rest : List Char) :
    newline? (character :: rest) = none := by
  cases found : newline? (character :: rest) with
  | none => rfl
  | some following =>
      obtain ⟨ending, isEnd, parts⟩ := exists_of_newline? found
      obtain ⟨first, others, rfl, isFirst⟩ := exists_of_lineEnd isEnd
      obtain ⟨rfl, _⟩ := List.cons.inj parts
      exact absurd isFirst noLineEnd

theorem newline?_of_printable (printable : Printable character) (rest : List Char) :
    newline? (character :: rest) = none := by
  apply newline?_of_not_mem
  rintro lineEnd
  simp only [List.mem_cons, List.not_mem_nil, or_false] at lineEnd
  rcases lineEnd with rfl | rfl <;> revert printable <;> unfold Printable <;> decide

theorem dropWhile_comment (isEnd : LineEnd ending ∨ ending = [] ∧ rest = [])
    (printable : ∀ character ∈ text, Printable character) :
    (text ++ (ending ++ rest)).dropWhile isTextCharacter = ending ++ rest := by
  rw [List.dropWhile_append_of_pos fun character membership =>
    (isTextCharacter_iff character).mpr (printable character membership)]
  rcases isEnd with (rfl | rfl) | ⟨rfl, rfl⟩ <;> rfl

/-! ### Blank lines and comments -/

theorem skipLines_lineEnd (isEnd : LineEnd ending) (rest : List Char) :
    skipLines (ending ++ rest) = skipLines rest := by
  rcases isEnd with rfl | rfl <;> exact skipLines.eq_def _

theorem skipLines_comment (isComment : Comment comment)
    (isEnd : LineEnd ending ∨ ending = [] ∧ rest = []) :
    skipLines (comment ++ (ending ++ rest)) = skipLines (ending ++ rest) := by
  obtain ⟨remark, rfl, printable⟩ := isComment
  rw [List.cons_append, skipLines, dropWhile_comment isEnd printable]
  rfl

theorem skipLines_of_solid (solid : Solid character) (rest : List Char) :
    skipLines (character :: rest) = character :: rest := by
  have noComment : character ≠ '#' := by
    rintro rfl
    simp [Solid] at solid
  have noLineEnd : newline? (character :: rest) = none := by
    apply newline?_of_not_mem
    intro lineEnd
    simp only [Solid, List.mem_cons, List.not_mem_nil, or_false, not_or] at solid lineEnd
    rcases lineEnd with rfl | rfl <;> simp at solid
  rw [skipLines]
  simp only [not_isBlank_of_solid solid, Bool.false_eq_true, if_false, beq_iff_eq, noComment]
  split
  · next found =>
      rw [noLineEnd] at found
      cases found
  · rfl

/-- A gap is skipped up to its end and further. -/
theorem skipLines_gap (isGap : Gap true gap) (rest : List Char) :
    skipLines (gap ++ rest) = skipLines rest := by
  induction isGap with
  | nil => rfl
  | blank isBlank _ inductionHypothesis =>
      rw [List.cons_append, skipLines, if_pos ((isBlank_iff _).mpr isBlank), inductionHypothesis]
  | lineEnd isEnd _ inductionHypothesis =>
      rw [List.append_assoc, skipLines_lineEnd isEnd, inductionHypothesis]
  | comment _ isComment isEnd _ inductionHypothesis =>
      rw [List.append_assoc, List.append_assoc, skipLines_comment isComment (.inl isEnd),
        skipLines_lineEnd isEnd, inductionHypothesis]

/-- What a gap can begin with. -/
theorem head?_gap_append (isGap : Gap true gap) (rest : List Char) :
    ∀ first ∈ (gap ++ rest).head?, first ∈ [' ', '\t', '\n', '\r', '#'] ∨ first ∈ rest.head? := by
  intro first isFirst
  cases isGap with
  | nil => exact .inr isFirst
  | blank isBlank =>
      obtain rfl := Option.some.inj isFirst
      rcases isBlank with rfl | rfl <;> simp
  | lineEnd isEnd =>
      rcases isEnd with rfl | rfl <;> obtain rfl := Option.some.inj isFirst <;> simp
  | comment _ isComment =>
      obtain ⟨remark, rfl, _⟩ := isComment
      obtain rfl := Option.some.inj isFirst
      simp

theorem skipBlankLines_gap (isGap : Gap false gap) (rest : List Char) :
    skipBlankLines (gap ++ rest) = skipBlankLines rest := by
  induction isGap with
  | nil => rfl
  | blank isBlank _ inductionHypothesis =>
      rw [List.cons_append, skipBlankLines, if_pos ((isBlank_iff _).mpr isBlank),
        inductionHypothesis]
  | lineEnd isEnd _ inductionHypothesis =>
      rw [List.append_assoc, ← inductionHypothesis]
      rcases isEnd with rfl | rfl <;> exact skipBlankLines.eq_def _
  | comment possible => cases possible

theorem skipBlankLines_of_not_mem (stays : character ∉ [' ', '\t', '\n', '\r'])
    (rest : List Char) : skipBlankLines (character :: rest) = character :: rest := by
  have noBlank : isBlank character = false := by
    rw [Bool.eq_false_iff, ne_eq, isBlank_iff]
    rintro (rfl | rfl) <;> simp at stays
  have noLineEnd : newline? (character :: rest) = none :=
    newline?_of_not_mem (fun lineEnd => stays (by simp_all)) rest
  rw [skipBlankLines]
  simp only [noBlank, Bool.false_eq_true, if_false]
  split
  · next found =>
      rw [noLineEnd] at found
      cases found
  · rfl

/-! ### The rest of a line -/

theorem endOfLine_remark {remark : List Char} (isRemark : Remark remark)
    (isEnd : LineEnd ending ∨ ending = [] ∧ rest = []) :
    endOfLine (remark ++ (ending ++ rest)) = .ok ((), rest) := by
  obtain ⟨blanks, comment, rfl, isBlanks, isComment⟩ := isRemark
  rw [endOfLine, List.append_assoc, skipBlanks_append isBlanks]
  rcases isComment with rfl | ⟨remark, rfl, printable⟩
  · rcases isEnd with (rfl | rfl) | ⟨rfl, rfl⟩ <;> rfl
  · have skips : skipBlanks ('#' :: (remark ++ (ending ++ rest))) =
        '#' :: (remark ++ (ending ++ rest)) := rfl
    simp only [List.cons_append, skips, dropWhile_comment isEnd printable]
    rcases isEnd with (rfl | rfl) | ⟨rfl, rfl⟩ <;> rfl

end Tokenizer.Toml
