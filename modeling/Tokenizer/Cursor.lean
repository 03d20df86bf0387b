/-!
A scan position in a source text.

A cursor remembers where the token in progress began, where the next character
stands and how many lines it has passed. Both places are positions of the
source, so they always lie between two characters, and offsets are in bytes.
-/

namespace Tokenizer

/-- A place in a source text, with the text pending since `start`. -/
structure Cursor where
  source : String
  /-- Where the token in progress begins. -/
  start : source.Pos
  /-- Where the next character stands. -/
  position : source.Pos
  start_le_position : start ≤ position
  /-- Lines count from 1 in 32 bits and wrap around. -/
  line : UInt32

namespace Cursor

/-- The cursor before the first character of a source. -/
def ofString (source : String) : Cursor where
  source := source
  start := source.startPos
  position := source.startPos
  start_le_position := String.Pos.le_refl _
  line := 1

/-- Whether no character remains. -/
def isAtEnd (cursor : Cursor) : Bool :=
  cursor.position == cursor.source.endPos

/-- How many bytes remain. -/
def remaining (cursor : Cursor) : Nat :=
  cursor.position.remainingBytes

/-- The character at a position before the end. A byte of ASCII is a character
by itself and needs no decoding. -/
def characterAt {source : String} (position : source.Pos)
    (inside : position ≠ source.endPos) : Char :=
  let byte := position.byte inside
  if byte < 128 then Char.ofUInt8 byte else position.get inside

/-- The next character, if one remains. -/
def peek? (cursor : Cursor) : Option Char :=
  if atEnd : cursor.position = cursor.source.endPos then none
  else some (characterAt cursor.position atEnd)

/-- The character `count` characters after the next one. -/
def peekNth? (cursor : Cursor) : Nat → Option Char
  | 0 => cursor.peek?
  | count + 1 => (cursor.position.nextn (count + 1)).get?

/-- The next character with the cursor after it. A line feed begins a line. -/
def bump? (cursor : Cursor) : Option (Char × Cursor) :=
  if atEnd : cursor.position = cursor.source.endPos then none
  else
    let character := characterAt cursor.position atEnd
    some (character,
      { cursor with
        position := cursor.position.next atEnd
        start_le_position :=
          String.Pos.le_trans cursor.start_le_position String.Pos.le_next
        line := if character == '\n' then cursor.line + 1 else cursor.line })

theorem remaining_of_bump? {cursor next : Cursor} {character : Char}
    (bumped : cursor.bump? = some (character, next)) :
    next.remaining < cursor.remaining := by
  by_cases atEnd : cursor.position = cursor.source.endPos
  · simp [bump?, atEnd] at bumped
  · simp only [bump?, atEnd, dite_false, Option.some.injEq, Prod.mk.injEq] at bumped
    obtain ⟨_, rfl⟩ := bumped
    exact (String.Pos.lt_iff_remainingBytes_lt _ _).mp (String.Pos.lt_next (h := atEnd))

/-- The cursor after the longest run of characters that satisfy a predicate. -/
def eatWhile (predicate : Char → Bool) (cursor : Cursor) : Cursor :=
  match _bumped : cursor.bump? with
  | none => cursor
  | some (character, next) =>
      if predicate character then next.eatWhile predicate else cursor
termination_by cursor.remaining
decreasing_by exact remaining_of_bump? _bumped

/-- The cursor after the next character, if that is the expected one. -/
def match? (expected : Char) (cursor : Cursor) : Option Cursor :=
  match cursor.bump? with
  | some (character, next) => if character == expected then some next else none
  | none => none

/-- Begin a token at the next character. -/
def resetStart (cursor : Cursor) : Cursor :=
  { cursor with
    start := cursor.position
    start_le_position := String.Pos.le_refl _ }

/-- The text pending since the start of the token in progress. -/
def lexeme (cursor : Cursor) : String :=
  String.extract cursor.start cursor.position

end Cursor

end Tokenizer
