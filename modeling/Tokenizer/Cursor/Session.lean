import Tokenizer.Cursor

/-!
Cursor operations as data, so that any sequence of them can be run and spoken
about. Any number of copies of the cursor can be taken, and each of them be used
in its turn.
-/

namespace Tokenizer.Cursor

/-- One use of a cursor. -/
inductive Operation where
  | peek
  /-- Look past the given number of characters. -/
  | peekNth (count : Nat)
  | bump
  | eatWhile (predicate : Char → Bool)
  | matchCharacter (expected : Char)
  | resetStart
  /-- Take a copy of the cursor. -/
  | save
  /-- Go back to the copy taken last, if one was taken; the copy stays. -/
  | restore
  /-- Go on with a copy, if there are so many, and keep the cursor in its place. Copies are counted
  from the one taken last. -/
  | exchange (number : Nat)
  /-- Ask how many bytes the source has. -/
  | sourceLength

/-- What an operation answers. -/
inductive Answer where
  | nothing
  | character (found : Option Char)
  | truth (holds : Bool)
  | count (bytes : Nat)
  deriving DecidableEq, Repr

/-- A cursor in use, with the copies that were taken, the last of them first. -/
structure Session where
  cursor : Cursor
  copies : List Cursor := []

namespace Session

def ofString (source : String) : Session :=
  { cursor := Cursor.ofString source }

/-- Perform one operation. -/
def perform (session : Session) : Operation → Answer × Session
  | .peek => (.character session.cursor.peek?, session)
  | .peekNth count => (.character (session.cursor.peekNth? count), session)
  | .bump =>
      match session.cursor.bump? with
      | none => (.character none, session)
      | some (character, next) => (.character (some character), { session with cursor := next })
  | .eatWhile predicate =>
      (.nothing, { session with cursor := session.cursor.eatWhile predicate })
  | .matchCharacter expected =>
      match session.cursor.match? expected with
      | none => (.truth false, session)
      | some next => (.truth true, { session with cursor := next })
  | .resetStart => (.nothing, { session with cursor := session.cursor.resetStart })
  | .save => (.nothing, { session with copies := session.cursor :: session.copies })
  | .restore =>
      match session.copies.head? with
      | none => (.truth false, session)
      | some copy => (.truth true, { session with cursor := copy })
  | .exchange number =>
      match session.copies[number]? with
      | none => (.truth false, session)
      | some copy => (.truth true, ⟨copy, session.copies.set number session.cursor⟩)
  | .sourceLength => (.count session.cursor.source.utf8ByteSize, session)

/-- Perform operations in turn. With each answer comes the session after it. -/
def performAll (session : Session) : List Operation → List (Answer × Session)
  | [] => []
  | operation :: rest =>
      let answered := session.perform operation
      answered :: answered.2.performAll rest

end Session

end Tokenizer.Cursor
