import Tokenizer.Character
import Tokenizer.Cursor
import Tokenizer.LexicalError
import Tokenizer.Token

/-!
The scanner as a machine: a state is a scan procedure that consumes characters,
completes at most one token and names the state to run next.
-/

namespace Tokenizer

/-- A state of the scanner. -/
inductive State where
  /-- Between tokens: skips white space and looks at the next character. -/
  | start
  | comment
  | identifier
  /-- The digits of a number, up to a decimal point if there is one. -/
  | integer
  /-- The digits after a decimal point. -/
  | fraction
  /-- The body of a string literal whose opening quote has been consumed. -/
  | string (quote : Char)
  | operator
  | separator
  deriving DecidableEq, Repr

/-- Where a state leads. -/
inductive Transition where
  | next (state : State)
  | exhausted
  deriving DecidableEq, Repr

/-- All that running one state does. -/
structure Step where
  cursor : Cursor
  emitted : Option Token
  outcome : Except LexicalError Transition

/-- The token of a kind that the pending text makes. -/
def Cursor.token (kind : Kind) (cursor : Cursor) : Token :=
  ⟨kind, cursor.line, cursor.lexeme⟩

namespace Step

/-- Go on without a token. -/
def silent (cursor : Cursor) (outcome : Except LexicalError Transition) : Step :=
  ⟨cursor, none, outcome⟩

/-- Complete the pending text as a token and return to the start state, unless
the input is consumed. -/
def complete (kind : Kind) (cursor : Cursor) : Step where
  cursor := cursor.resetStart
  emitted := some (cursor.token kind)
  outcome := .ok (if cursor.isAtEnd then .exhausted else .next .start)

end Step

namespace State

/-- The state that reads the token beginning with a character. -/
def ofLead? (character : Char) : Option State :=
  if character == commentMarker then some .comment
  else if isIdentifierStart character then some .identifier
  else if character.isDigit then some .integer
  else if isSeparator character then some .separator
  else if isOperator character then some .operator
  else if isQuote character then some (.string character)
  else none

/-- The cursor at the next character that is not white space. Pending text is
given up only if there is white space to skip. -/
def skipWhitespace (cursor : Cursor) : Cursor :=
  if cursor.peek?.any isWhitespace then (cursor.eatWhile isWhitespace).resetStart
  else cursor

/-- An opening quote is consumed here; any other character is left to the state
that it selects. -/
def stepStart (cursor : Cursor) : Step :=
  let cursor := skipWhitespace cursor
  match cursor.bump? with
  | none => .silent cursor (.ok .exhausted)
  | some (character, next) =>
      match ofLead? character with
      | none => .silent cursor (.error (.unrecognizedCharacter cursor.line character))
      | some (.string quote) => .silent next (.ok (.next (.string quote)))
      | some state => .silent cursor (.ok (.next state))

/-- The cursor after the quote that closes a literal, or else at the end of the
input. A backslash takes the next character with it, whatever that is. -/
def closeString (quote : Char) (cursor : Cursor) : Except Cursor Cursor :=
  match _bumped : cursor.bump? with
  | none => .error cursor
  | some (character, next) =>
      if character == '\\' then
        match _escaped : next.bump? with
        | none => .error next
        | some (_, next) => closeString quote next
      else if character == quote then .ok next
      else closeString quote next
termination_by cursor.remaining
decreasing_by
  · exact Nat.lt_trans (Cursor.remaining_of_bump? _escaped) (Cursor.remaining_of_bump? _bumped)
  · exact Cursor.remaining_of_bump? _bumped

def stepString (quote : Char) (cursor : Cursor) : Step :=
  match closeString quote cursor with
  | .ok next => .complete .string next
  | .error last => .silent last (.error (.unterminatedString last.line))

def stepInteger (cursor : Cursor) : Step :=
  let cursor := cursor.eatWhile Char.isDigit
  match cursor.match? '.' with
  | some next => .silent next (.ok (.next .fraction))
  | none => .complete .integer cursor

/-- The cursor after one operator, of two characters where they make a pair. -/
def afterOperator (cursor : Cursor) : Cursor :=
  match cursor.bump? with
  | none => cursor
  | some (first, next) =>
      match next.bump? with
      | none => next
      | some (second, last) => if isTwoCharacterOperator first second then last else next

/-- The cursor after one character, if one remains. -/
def afterSeparator (cursor : Cursor) : Cursor :=
  match cursor.bump? with
  | none => cursor
  | some (_, next) => next

/-- Run a state. -/
def step : State → Cursor → Step
  | .start, cursor => stepStart cursor
  | .comment, cursor => .complete .comment (cursor.eatWhile fun c => !isLineEnd c)
  | .identifier, cursor => .complete .identifier (cursor.eatWhile isIdentifierContinue)
  | .integer, cursor => stepInteger cursor
  | .fraction, cursor => .complete .real (cursor.eatWhile Char.isDigit)
  | .string quote, cursor => stepString quote cursor
  | .operator, cursor => .complete .operator (afterOperator cursor)
  | .separator, cursor => .complete .separator (afterSeparator cursor)

end State

end Tokenizer
