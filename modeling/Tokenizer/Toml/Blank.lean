import Tokenizer.Toml.Value

/-!
What stands between the parts of a TOML document: blanks, line ends and
comments.
-/

namespace Tokenizer.Toml

def isBlank (character : Char) : Bool :=
  character == ' ' || character == '\t'

/-- Whether a character may stand in a comment, or unescaped in a string. Of
the controls only the tab may. -/
def isTextCharacter (character : Char) : Bool :=
  character == '\t' || (0x20 ≤ character.toNat && character.toNat != 0x7F)

def skipBlanks (text : List Char) : List Char :=
  text.dropWhile isBlank

/-- The rest of a text after the line end that it begins with. -/
def newline? : List Char → Option (List Char)
  | '\n' :: rest => some rest
  | '\r' :: '\n' :: rest => some rest
  | _ => none

theorem length_of_newline? {text rest : List Char} (found : newline? text = some rest) :
    rest.length < text.length := by
  unfold newline? at found
  split at found
  · cases found
    simp
  · cases found
    simp only [List.length_cons]
    omega
  · cases found

/-- Skip blanks, line ends and comments. -/
def skipLines (text : List Char) : List Char :=
  match text with
  | [] => []
  | character :: rest =>
      if isBlank character then skipLines rest
      else if character == '#' then skipLines (rest.dropWhile isTextCharacter)
      else
        match _found : newline? (character :: rest) with
        | some rest => skipLines rest
        | none => character :: rest
termination_by text.length
decreasing_by
  · simp
  · exact Nat.lt_succ_of_le (List.dropWhile_suffix _).length_le
  · exact length_of_newline? _found

/-- Skip blanks and line ends. -/
def skipBlankLines (text : List Char) : List Char :=
  match text with
  | [] => []
  | character :: rest =>
      if isBlank character then skipBlankLines rest
      else
        match _found : newline? (character :: rest) with
        | some rest => skipBlankLines rest
        | none => character :: rest
termination_by text.length
decreasing_by
  · simp
  · exact length_of_newline? _found

/-- Skip what may follow on a line after its statement, and the line end. -/
def endOfLine (text : List Char) : Reading Unit :=
  let text := skipBlanks text
  let text := match text with
    | '#' :: rest => rest.dropWhile isTextCharacter
    | _ => text
  match text with
  | [] => .ok ((), [])
  | _ =>
      match newline? text with
      | some rest => .ok ((), rest)
      | none => .error (.expected "the end of the line")

end Tokenizer.Toml
