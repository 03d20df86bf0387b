import Mathlib.Computability.Language
import Tokenizer.Character
import Tokenizer.Proofs.Text.Ascii
import Tokenizer.Token

/-!
The grammar of each kind of token, as a language of words.

The grammars name their characters themselves, and the lemmas at the end say
that the predicates on which the scanner decides are these classes.
-/

namespace Tokenizer

open Computability

namespace Grammar

/-- The letters of ASCII. -/
def Letter (character : Char) : Prop :=
  ('a' ≤ character ∧ character ≤ 'z') ∨ ('A' ≤ character ∧ character ≤ 'Z')

/-- The digits of ASCII. -/
def Digit (character : Char) : Prop :=
  '0' ≤ character ∧ character ≤ '9'

/-- What an identifier may go on with. -/
def WordCharacter (character : Char) : Prop :=
  Letter character ∨ Digit character ∨ character = '_'

def Separator (character : Char) : Prop :=
  character ∈ "();\x7b\x7d[],".toList

def Operator (character : Char) : Prop :=
  character ∈ "!&%+-*/\\|^=~:><.".toList

/-- The operators of two characters. -/
def operatorPairs : List (List Char) :=
  ["++", "--", ">>", "<<", "==", "!=", "&&"].map String.toList

def Quote (character : Char) : Prop :=
  character = '"' ∨ character = '\x27'

def LineEnd (character : Char) : Prop :=
  character = '\n' ∨ character = '\r'

/-- What may stand between two tokens. -/
def Blank (character : Char) : Prop :=
  character = ' ' ∨ character = '\t' ∨ LineEnd character

/-- The words of one character of a class. -/
def oneOf (characters : Char → Prop) : Language Char :=
  {word | ∃ character, characters character ∧ word = [character]}

/-- The words of a list. -/
def among (words : List (List Char)) : Language Char :=
  {word | word ∈ words}

/-- A literal between two quotes. A backslash takes the next character with it,
whatever that is. -/
def literal (quote : Char) : Language Char :=
  oneOf (· = quote) *
    (oneOf (fun character => character ≠ '\\' ∧ character ≠ quote) +
      oneOf (· = '\\') * oneOf (fun _ => True))∗ *
    oneOf (· = quote)

end Grammar

open Grammar in
/-- The words of each kind. No word is a `dedent` or a `finish`. -/
def Kind.grammar : Kind → Language Char
  | .identifier => oneOf Letter * (oneOf WordCharacter)∗
  | .integer => oneOf Digit * (oneOf Digit)∗
  | .real => oneOf Digit * (oneOf Digit)∗ * oneOf (· = '.') * (oneOf Digit)∗
  | .string => literal '"' + literal '\x27'
  | .operator => oneOf Operator + among operatorPairs
  | .separator => oneOf Separator
  | .comment => oneOf (· = '#') * (oneOf fun character => ¬ LineEnd character)∗
  | .dedent => 0
  | .finish => 0

namespace Grammar

/-! ### Words by their characters -/

theorem mem_oneOf_mul {characters : Char → Prop} {language : Language Char} {word : List Char} :
    word ∈ oneOf characters * language ↔
      ∃ character tail, characters character ∧ tail ∈ language ∧ word = character :: tail := by
  rw [Language.mem_mul]
  constructor
  · rintro ⟨_, ⟨character, holds, rfl⟩, tail, membership, rfl⟩
    exact ⟨character, tail, holds, membership, rfl⟩
  · rintro ⟨character, tail, holds, membership, rfl⟩
    exact ⟨[character], ⟨character, holds, rfl⟩, tail, membership, rfl⟩

theorem mem_kstar_oneOf {characters : Char → Prop} {word : List Char} :
    word ∈ (oneOf characters)∗ ↔ ∀ character ∈ word, characters character := by
  rw [Language.mem_kstar]
  constructor
  · rintro ⟨words, rfl, each⟩ character membership
    rcases List.mem_flatten.mp membership with ⟨_, inWords, inWord⟩
    rcases each _ inWords with ⟨found, holds, rfl⟩
    rw [List.mem_singleton.mp inWord]
    exact holds
  · intro each
    refine ⟨word.map fun character => [character], by simp [← List.flatMap_def], ?_⟩
    intro part membership
    rcases List.mem_map.mp membership with ⟨character, inWord, rfl⟩
    exact ⟨character, each character inWord, rfl⟩

theorem mem_identifier {word : List Char} :
    word ∈ Kind.identifier.grammar ↔
      ∃ lead tail, Letter lead ∧ (∀ character ∈ tail, WordCharacter character) ∧
        word = lead :: tail := by
  simp only [Kind.grammar, mem_oneOf_mul, mem_kstar_oneOf]

theorem mem_integer {word : List Char} :
    word ∈ Kind.integer.grammar ↔ word ≠ [] ∧ ∀ character ∈ word, Digit character := by
  simp only [Kind.grammar, mem_oneOf_mul, mem_kstar_oneOf]
  constructor
  · rintro ⟨lead, tail, isDigit, digits, rfl⟩
    exact ⟨List.cons_ne_nil _ _, List.forall_mem_cons.mpr ⟨isDigit, digits⟩⟩
  · rintro ⟨nonempty, digits⟩
    rcases List.exists_cons_of_ne_nil nonempty with ⟨lead, tail, rfl⟩
    rw [List.forall_mem_cons] at digits
    exact ⟨lead, tail, digits.1, digits.2, rfl⟩

theorem mem_real {word : List Char} :
    word ∈ Kind.real.grammar ↔
      ∃ whole ∈ Kind.integer.grammar, ∃ fraction, (∀ character ∈ fraction, Digit character) ∧
        word = whole ++ '.' :: fraction := by
  have associated : Kind.real.grammar =
      Kind.integer.grammar * (oneOf (· = '.') * (oneOf Digit)∗) := by
    simp only [Kind.grammar, mul_assoc]
  rw [associated, Language.mem_mul]
  simp only [mem_oneOf_mul, mem_kstar_oneOf]
  constructor
  · rintro ⟨whole, isWhole, _, ⟨_, fraction, rfl, digits, rfl⟩, rfl⟩
    exact ⟨whole, isWhole, fraction, digits, rfl⟩
  · rintro ⟨whole, isWhole, fraction, digits, rfl⟩
    exact ⟨whole, isWhole, _, ⟨_, fraction, rfl, digits, rfl⟩, rfl⟩

theorem mem_operator {word : List Char} :
    word ∈ Kind.operator.grammar ↔
      (∃ character, Operator character ∧ word = [character]) ∨ word ∈ operatorPairs :=
  Language.mem_add _ _ _

theorem mem_separator {word : List Char} :
    word ∈ Kind.separator.grammar ↔ ∃ character, Separator character ∧ word = [character] :=
  Iff.rfl

theorem mem_comment {word : List Char} :
    word ∈ Kind.comment.grammar ↔
      ∃ tail, (∀ character ∈ tail, ¬ LineEnd character) ∧ word = '#' :: tail := by
  simp only [Kind.grammar, mem_oneOf_mul, mem_kstar_oneOf]
  constructor
  · rintro ⟨_, tail, rfl, inLine, rfl⟩
    exact ⟨tail, inLine, rfl⟩
  · rintro ⟨tail, inLine, rfl⟩
    exact ⟨_, tail, rfl, inLine, rfl⟩

/-- What the body of a literal is made of: a character other than the backslash
and the quote, or a backslash with any character. -/
def BodyUnit (quote : Char) (unit : List Char) : Prop :=
  (∃ character, (character ≠ '\\' ∧ character ≠ quote) ∧ unit = [character]) ∨
    ∃ character, unit = ['\\', character]

theorem mem_literal {quote : Char} {word : List Char} :
    word ∈ literal quote ↔
      ∃ body : List (List Char), (∀ unit ∈ body, BodyUnit quote unit) ∧
        word = quote :: (body.flatten ++ [quote]) := by
  have units : ∀ unit, BodyUnit quote unit ↔
      unit ∈ oneOf (fun character => character ≠ '\\' ∧ character ≠ quote) +
        oneOf (· = '\\') * oneOf (fun _ => True) := by
    intro unit
    rw [Language.mem_add, mem_oneOf_mul, BodyUnit]
    refine or_congr Iff.rfl ?_
    constructor
    · rintro ⟨character, rfl⟩
      exact ⟨_, [character], rfl, ⟨character, trivial, rfl⟩, rfl⟩
    · rintro ⟨_, _, rfl, ⟨character, _, rfl⟩, rfl⟩
      exact ⟨character, rfl⟩
  rw [literal, mul_assoc, mem_oneOf_mul]
  simp only [Language.mem_mul, Language.mem_kstar]
  constructor
  · rintro ⟨_, _, rfl, ⟨_, ⟨body, rfl, each⟩, _, ⟨_, rfl, rfl⟩, rfl⟩, rfl⟩
    exact ⟨body, fun unit membership => (units unit).mpr (each unit membership), rfl⟩
  · rintro ⟨body, each, rfl⟩
    have inUnits := fun unit membership => (units unit).mp (each unit membership)
    exact ⟨_, _, rfl, ⟨_, ⟨body, rfl, inUnits⟩, _, ⟨_, rfl, rfl⟩, rfl⟩, rfl⟩

theorem mem_string {word : List Char} :
    word ∈ Kind.string.grammar ↔ ∃ quote, Quote quote ∧ word ∈ literal quote := by
  simp only [Kind.grammar, Language.mem_add, Quote]
  constructor
  · rintro (membership | membership)
    · exact ⟨_, .inl rfl, membership⟩
    · exact ⟨_, .inr rfl, membership⟩
  · rintro ⟨quote, rfl | rfl, membership⟩
    · exact .inl membership
    · exact .inr membership

/-! ### The classes on which the scanner decides -/

theorem isIdentifierStart_iff (character : Char) :
    isIdentifierStart character = true ↔ Letter character :=
  Text.isAlpha_iff character

theorem isDigit_iff (character : Char) : character.isDigit = true ↔ Digit character :=
  Text.isDigit_iff character

theorem isIdentifierContinue_iff (character : Char) :
    isIdentifierContinue character = true ↔ WordCharacter character := by
  have letter := isIdentifierStart_iff character
  have digit := isDigit_iff character
  rw [isIdentifierStart] at letter
  simp only [isIdentifierContinue, Char.isAlphanum, WordCharacter, Bool.or_eq_true, letter,
    digit, beq_iff_eq, or_assoc]

theorem isSeparator_iff (character : Char) :
    isSeparator character = true ↔ Separator character := by
  rw [isSeparator, List.contains_iff_mem, Separator]
  rfl

theorem isOperator_iff (character : Char) :
    isOperator character = true ↔ Operator character := by
  rw [isOperator, List.contains_iff_mem, Operator]
  rfl

theorem isTwoCharacterOperator_iff (first second : Char) :
    isTwoCharacterOperator first second = true ↔ [first, second] ∈ operatorPairs := by
  have words : ∀ word, word ∈ operatorPairs ↔
      word ∈ twoCharacterOperators.map fun pair => [pair.1, pair.2] := fun _ => Iff.rfl
  rw [isTwoCharacterOperator, List.contains_iff_mem, words]
  simp [twoCharacterOperators]

theorem isQuote_iff (character : Char) : isQuote character = true ↔ Quote character := by
  simp [isQuote, Quote]

theorem isLineEnd_iff (character : Char) :
    isLineEnd character = true ↔ LineEnd character := by
  simp [isLineEnd, LineEnd]

theorem isWhitespace_iff (character : Char) :
    isWhitespace character = true ↔ Blank character := by
  simp [isWhitespace, Blank, LineEnd, or_assoc]

end Grammar

end Tokenizer
