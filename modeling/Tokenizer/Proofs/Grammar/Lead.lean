import Tokenizer.Proofs.Grammar.Basic
import Tokenizer.Scanner

/-!
The first character of a word decides which state reads it. Only `integer` and
`real` share their first characters, so the grammars are disjoint.
-/

namespace Tokenizer

open Grammar

namespace Grammar

/-- The characters with which no token and no white space begins. -/
structure Stray (character : Char) : Prop where
  notMarker : character ≠ '#'
  notLetter : ¬ Letter character
  notDigit : ¬ Digit character
  notSeparator : ¬ Separator character
  notOperator : ¬ Operator character
  notQuote : ¬ Quote character
  notBlank : ¬ Blank character

theorem not_letter_of_digit {character : Char} (digit : Digit character) :
    ¬ Letter character := by
  simp only [Letter, Digit, Char.le_def, UInt32.le_iff_toNat_le] at digit ⊢
  simp at digit ⊢
  omega

end Grammar

namespace State

theorem ofLead?_of_letter {character : Char} (letter : Letter character) :
    ofLead? character = some .identifier := by
  have holds := (isIdentifierStart_iff character).mpr letter
  have different : (character == commentMarker) = false := by
    apply beq_false_of_ne
    rintro rfl
    exact absurd holds (by decide)
  simp [ofLead?, different, holds]

theorem ofLead?_of_digit {character : Char} (digit : Digit character) :
    ofLead? character = some .integer := by
  have holds := (isDigit_iff character).mpr digit
  have different : (character == commentMarker) = false := by
    apply beq_false_of_ne
    rintro rfl
    exact absurd holds (by decide)
  have noLetter : isIdentifierStart character = false := by
    rw [Bool.eq_false_iff, Ne, isIdentifierStart_iff]
    exact not_letter_of_digit digit
  simp [ofLead?, different, noLetter, holds]

theorem ofLead?_of_separator {character : Char} (separator : Separator character) :
    ofLead? character = some .separator := by
  have each :
      ("();\x7b\x7d[],".toList.all fun lead => ofLead? lead == some .separator) = true := by
    decide
  exact eq_of_beq (List.all_eq_true.mp each character separator)

theorem ofLead?_of_operator {character : Char} (operator : Operator character) :
    ofLead? character = some .operator := by
  have each :
      ("!&%+-*/\\|^=~:><.".toList.all fun lead => ofLead? lead == some .operator) = true := by
    decide
  exact eq_of_beq (List.all_eq_true.mp each character operator)

theorem ofLead?_of_quote {character : Char} (quote : Quote character) :
    ofLead? character = some (.string character) := by
  rcases quote with rfl | rfl <;> rfl

theorem ofLead?_of_blank {character : Char} (blank : Blank character) :
    ofLead? character = none := by
  rcases blank with rfl | rfl | rfl | rfl <;> rfl

/-- What a state tells about the character that selected it. -/
theorem ofLead?_eq_some {character : Char} {state : State}
    (selected : ofLead? character = some state) :
    (state = .comment ∧ character = '#') ∨ (state = .identifier ∧ Letter character) ∨
      (state = .integer ∧ Digit character) ∨ (state = .separator ∧ Separator character) ∨
      (state = .operator ∧ Operator character) ∨
      (state = .string character ∧ Quote character) := by
  simp only [ofLead?, ← isIdentifierStart_iff, ← isDigit_iff, ← isSeparator_iff,
    ← isOperator_iff, ← isQuote_iff] at selected ⊢
  split at selected
  · next isMarker => exact .inl ⟨by cases selected; rfl, eq_of_beq isMarker⟩
  · split at selected
    · next holds => exact .inr (.inl ⟨by cases selected; rfl, holds⟩)
    · split at selected
      · next holds => exact .inr (.inr (.inl ⟨by cases selected; rfl, holds⟩))
      · split at selected
        · next holds => exact .inr (.inr (.inr (.inl ⟨by cases selected; rfl, holds⟩)))
        · split at selected
          · next holds =>
              exact .inr (.inr (.inr (.inr (.inl ⟨by cases selected; rfl, holds⟩))))
          · split at selected
            · next holds =>
                exact .inr (.inr (.inr (.inr (.inr ⟨by cases selected; rfl, holds⟩))))
            · cases selected

/-- A character that is not white space and selects no state is stray. -/
theorem ofLead?_eq_none_iff {character : Char} (notBlank : ¬ Blank character) :
    ofLead? character = none ↔ Stray character := by
  constructor
  · intro unselected
    refine ⟨?_, ?_, ?_, ?_, ?_, ?_, notBlank⟩
    · rintro rfl
      exact absurd unselected (by decide)
    · intro letter
      rw [ofLead?_of_letter letter] at unselected
      cases unselected
    · intro digit
      rw [ofLead?_of_digit digit] at unselected
      cases unselected
    · intro separator
      rw [ofLead?_of_separator separator] at unselected
      cases unselected
    · intro operator
      rw [ofLead?_of_operator operator] at unselected
      cases unselected
    · intro quote
      rw [ofLead?_of_quote quote] at unselected
      cases unselected
  · rintro ⟨noMarker, noLetter, noDigit, noSeparator, noOperator, noQuote, -⟩
    cases selected : ofLead? character with
    | none => rfl
    | some state => grind [ofLead?_eq_some selected]

end State

/-- The state that reads the words of a kind, by their first character. -/
def Kind.reader : Kind → Char → State
  | .identifier, _ => .identifier
  | .integer, _ => .integer
  | .real, _ => .integer
  | .string, character => .string character
  | .operator, _ => .operator
  | .separator, _ => .separator
  | .comment, _ => .comment
  | .dedent, _ => .start
  | .finish, _ => .start

namespace Grammar

theorem Quote.not_blank {quote : Char} (isQuote : Quote quote) : ¬ Blank quote := by
  intro blank
  have unselected := State.ofLead?_of_blank blank
  rw [State.ofLead?_of_quote isQuote] at unselected
  cases unselected

/-! White space selects no state, so it is none of the characters that do. -/

theorem Blank.not_letter {character : Char} (blank : Blank character) : ¬ Letter character := by
  intro letter
  have unselected := State.ofLead?_of_blank blank
  rw [State.ofLead?_of_letter letter] at unselected
  cases unselected

theorem Blank.not_digit {character : Char} (blank : Blank character) : ¬ Digit character := by
  intro digit
  have unselected := State.ofLead?_of_blank blank
  rw [State.ofLead?_of_digit digit] at unselected
  cases unselected

theorem Blank.not_wordCharacter {character : Char} (blank : Blank character) :
    ¬ WordCharacter character := by
  rintro (letter | digit | rfl)
  · exact blank.not_letter letter
  · exact blank.not_digit digit
  · rcases blank with impossible | impossible | impossible | impossible <;> cases impossible

theorem Blank.not_separator {character : Char} (blank : Blank character) :
    ¬ Separator character := by
  intro separator
  have unselected := State.ofLead?_of_blank blank
  rw [State.ofLead?_of_separator separator] at unselected
  cases unselected

theorem Blank.not_operator {character : Char} (blank : Blank character) :
    ¬ Operator character := by
  intro operator
  have unselected := State.ofLead?_of_blank blank
  rw [State.ofLead?_of_operator operator] at unselected
  cases unselected

theorem ne_nil_of_mem_grammar {kind : Kind} {word : List Char} (membership : word ∈ kind.grammar) :
    word ≠ [] := by
  rintro rfl
  cases kind with
  | identifier => simp [mem_identifier] at membership
  | integer => simp [mem_integer] at membership
  | real => simp [mem_real] at membership
  | string => simp [mem_string, mem_literal] at membership
  | operator =>
      rcases mem_operator.mp membership with ⟨_, _, equality⟩ | inPairs
      · cases equality
      · exact absurd inPairs (by decide)
  | separator => simp [mem_separator] at membership
  | comment => simp [mem_comment] at membership
  | dedent => exact membership
  | finish => exact membership

/-- The first character of a word selects the state that reads its kind. -/
theorem ofLead?_of_mem_grammar {kind : Kind} {lead : Char} {tail : List Char}
    (membership : lead :: tail ∈ kind.grammar) :
    State.ofLead? lead = some (kind.reader lead) := by
  have digitLead : ∀ {whole : List Char}, lead :: whole ∈ Kind.integer.grammar →
      State.ofLead? lead = some .integer := fun isInteger =>
    State.ofLead?_of_digit ((mem_integer.mp isInteger).2 lead (by simp))
  cases kind with
  | identifier =>
      rcases mem_identifier.mp membership with ⟨_, _, letter, _, equality⟩
      cases equality
      exact State.ofLead?_of_letter letter
  | integer => exact digitLead membership
  | real =>
      rcases mem_real.mp membership with ⟨whole, isWhole, fraction, _, equality⟩
      cases whole with
      | nil => exact absurd rfl (ne_nil_of_mem_grammar isWhole)
      | cons first others =>
          cases equality
          exact digitLead isWhole
  | string =>
      rcases mem_string.mp membership with ⟨quote, isQuote, inLiteral⟩
      rcases mem_literal.mp inLiteral with ⟨_, _, equality⟩
      cases equality
      exact State.ofLead?_of_quote isQuote
  | operator =>
      rcases mem_operator.mp membership with ⟨_, operator, equality⟩ | inPairs
      · cases equality
        exact State.ofLead?_of_operator operator
      · have leads : ∀ word ∈ operatorPairs,
            word.head?.bind State.ofLead? = some .operator := by decide
        exact leads _ inPairs
  | separator =>
      rcases membership with ⟨_, separator, equality⟩
      cases equality
      exact State.ofLead?_of_separator separator
  | comment =>
      rcases mem_comment.mp membership with ⟨_, _, equality⟩
      cases equality
      rfl
  | dedent => exact membership.elim
  | finish => exact membership.elim

/-- Two kinds whose words begin alike are the same, or both are numbers. -/
theorem kind_eq_or_number {kind other : Kind} {lead : Char} {tail otherTail : List Char}
    (membership : lead :: tail ∈ kind.grammar)
    (otherMembership : lead :: otherTail ∈ other.grammar) :
    kind = other ∨ (kind = .integer ∧ other = .real) ∨ (kind = .real ∧ other = .integer) := by
  have first := ofLead?_of_mem_grammar membership
  rw [ofLead?_of_mem_grammar otherMembership] at first
  have dedentEmpty : ∀ word, word ∉ Kind.dedent.grammar := fun _ impossible => impossible
  have finishEmpty : ∀ word, word ∉ Kind.finish.grammar := fun _ impossible => impossible
  cases kind <;> cases other <;> simp_all [Kind.reader]

theorem point_not_digit : ¬ Digit '.' := by
  simp [Digit, Char.le_def]

theorem not_mem_integer_of_mem_real {word : List Char} (isReal : word ∈ Kind.real.grammar) :
    word ∉ Kind.integer.grammar := by
  rcases mem_real.mp isReal with ⟨whole, _, fraction, _, rfl⟩
  intro isInteger
  exact point_not_digit ((mem_integer.mp isInteger).2 '.' (by simp))

/-- No word is of two kinds. -/
theorem kind_unique {kind other : Kind} {word : List Char} (membership : word ∈ kind.grammar)
    (otherMembership : word ∈ other.grammar) : kind = other := by
  rcases List.exists_cons_of_ne_nil (ne_nil_of_mem_grammar membership) with ⟨lead, tail, rfl⟩
  rcases kind_eq_or_number membership otherMembership with
    same | ⟨rfl, rfl⟩ | ⟨rfl, rfl⟩
  · exact same
  · exact absurd membership (not_mem_integer_of_mem_real otherMembership)
  · exact absurd otherMembership (not_mem_integer_of_mem_real membership)

end Grammar

end Tokenizer
