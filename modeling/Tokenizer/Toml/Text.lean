import Tokenizer.Toml.Blank

/-!
TOML strings: four ways to read one, and the rule by which one of them is
chosen for writing.
-/

namespace Tokenizer.Toml

/-! ## Reading -/

/-- The value of a hexadecimal digit. -/
def hexDigit? (character : Char) : Option Nat :=
  if character.isDigit then some (character.toNat - '0'.toNat)
  else if 'a' ≤ character && character ≤ 'f' then some (character.toNat - 'a'.toNat + 10)
  else if 'A' ≤ character && character ≤ 'F' then some (character.toNat - 'A'.toNat + 10)
  else none

/-- The number that hexadecimal digits stand for. -/
def hexNumber? (digits : List Char) : Option Nat :=
  digits.foldlM (fun number digit => (hexDigit? digit).map fun value => 16 * number + value) 0

/-- The character with a code point in hexadecimal digits. -/
def scalar? (digits : List Char) : Option Char :=
  (hexNumber? digits).bind fun code =>
    if code.isValidChar then some (Char.ofNat code) else none

/-- The character that a backslash and one other character stand for. -/
def simpleEscape? : Char → Option Char
  | 'b' => some '\x08'
  | 't' => some '\t'
  | 'n' => some '\n'
  | 'f' => some '\x0c'
  | 'r' => some '\r'
  | '"' => some '"'
  | '\\' => some '\\'
  | _ => none

/-- The character whose code point the first digits of a text give. -/
def hexEscape? (count : Nat) (text : List Char) : Option (Char × List Char) :=
  if text.length < count then none
  else (scalar? (text.take count)).map fun character => (character, text.drop count)

/-- The character that a backslash and the front of a text stand for. -/
def escape? : List Char → Option (Char × List Char)
  | [] => none
  | character :: rest =>
      if character == 'u' then hexEscape? 4 rest
      else if character == 'U' then hexEscape? 8 rest
      else (simpleEscape? character).map fun meant => (meant, rest)

theorem length_of_hexEscape? {count : Nat} {text rest : List Char} {character : Char}
    (escaped : hexEscape? count text = some (character, rest)) :
    rest.length ≤ text.length := by
  unfold hexEscape? at escaped
  split at escaped
  · cases escaped
  · obtain ⟨_, _, equality⟩ := Option.map_eq_some_iff.mp escaped
    cases equality
    simp

theorem length_of_escape? {text rest : List Char} {character : Char}
    (escaped : escape? text = some (character, rest)) : rest.length < text.length := by
  cases text with
  | nil => cases escaped
  | cons first following =>
      simp only [escape?] at escaped
      split at escaped
      · exact Nat.lt_succ_of_le (length_of_hexEscape? escaped)
      · split at escaped
        · exact Nat.lt_succ_of_le (length_of_hexEscape? escaped)
        · obtain ⟨_, _, equality⟩ := Option.map_eq_some_iff.mp escaped
          cases equality
          simp

/-- A string up to its closing quotation mark, with escapes. -/
def basicBody (text : List Char) : Reading (List Char) :=
  match text with
  | [] => .error (.expected "a closing quotation mark")
  | character :: rest =>
      if character == '"' then .ok ([], rest)
      else if character == '\\' then
        match _escaped : escape? rest with
        | some (meant, rest) => (basicBody rest).map (meant :: ·)
        | none => .error (.expected "an escape sequence")
      else if isTextCharacter character then (basicBody rest).map (character :: ·)
      else .error (.expected "a printable character")
termination_by text.length
decreasing_by
  · have := length_of_escape? _escaped
    simp only [List.length_cons]
    omega
  · simp

/-- A string up to its closing apostrophe, as it is. -/
def literalBody : List Char → Reading (List Char)
  | [] => .error (.expected "a closing apostrophe")
  | character :: rest =>
      if character == '\x27' then .ok ([], rest)
      else if isTextCharacter character then (literalBody rest).map (character :: ·)
      else .error (.expected "a printable character")

/-- The rest of a text after three delimiters, and up to two more of them that
still belong to the string. -/
def closing? (delimiter : Char) : List Char → Option (List Char × List Char)
  | first :: second :: third :: rest =>
      if first == delimiter && second == delimiter && third == delimiter then
        let surplus := (rest.take 2).takeWhile (· == delimiter)
        some (surplus, rest.drop surplus.length)
      else none
  | _ => none

/-- The rest of a text after a line end that is to be ignored: a backslash has
been read, and blanks may stand before the line end. -/
def continuation? (text : List Char) : Option (List Char) :=
  (newline? (skipBlanks text)).map skipBlankLines

theorem length_skipBlankLines_le (text : List Char) :
    (skipBlankLines text).length ≤ text.length := by
  fun_induction skipBlankLines text with
  | case1 => exact Nat.le_refl _
  | case2 character rest _ inductionHypothesis =>
      exact Nat.le_trans inductionHypothesis (Nat.le_succ _)
  | case3 character rest _ following found inductionHypothesis =>
      exact Nat.le_trans inductionHypothesis (Nat.le_of_lt (length_of_newline? found))
  | case4 => exact Nat.le_refl _

theorem length_of_continuation? {text rest : List Char}
    (continued : continuation? text = some rest) : rest.length < text.length := by
  obtain ⟨following, found, rfl⟩ := Option.map_eq_some_iff.mp continued
  have shorter := length_of_newline? found
  have skipped : (skipBlanks text).length ≤ text.length :=
    (List.dropWhile_suffix _).length_le
  have kept := length_skipBlankLines_le following
  omega

/-- A string of several lines with escapes, up to three quotation marks. -/
def multilineBasicBody (text : List Char) : Reading (List Char) :=
  match closing? '"' text with
  | some (surplus, rest) => .ok (surplus, rest)
  | none =>
      match text with
      | [] => .error (.expected "closing quotation marks")
      | character :: rest =>
          if character == '\\' then
            match _continued : continuation? rest with
            | some rest => multilineBasicBody rest
            | none =>
                match _escaped : escape? rest with
                | some (meant, rest) => (multilineBasicBody rest).map (meant :: ·)
                | none => .error (.expected "an escape sequence")
          else
            match _found : newline? (character :: rest) with
            | some rest => (multilineBasicBody rest).map ('\n' :: ·)
            | none =>
                if isTextCharacter character then
                  (multilineBasicBody rest).map (character :: ·)
                else .error (.expected "a printable character")
termination_by text.length
decreasing_by
  · have := length_of_continuation? _continued
    simp only [List.length_cons]
    omega
  · have := length_of_escape? _escaped
    simp only [List.length_cons]
    omega
  · exact length_of_newline? _found
  · simp

/-- A string of several lines as it is, up to three apostrophes. -/
def multilineLiteralBody (text : List Char) : Reading (List Char) :=
  match closing? '\x27' text with
  | some (surplus, rest) => .ok (surplus, rest)
  | none =>
      match text with
      | [] => .error (.expected "closing apostrophes")
      | character :: rest =>
          match _found : newline? (character :: rest) with
          | some rest => (multilineLiteralBody rest).map ('\n' :: ·)
          | none =>
              if isTextCharacter character then
                (multilineLiteralBody rest).map (character :: ·)
              else .error (.expected "a printable character")
termination_by text.length
decreasing_by
  · exact length_of_newline? _found
  · simp

/-- The rest of a text after a line end, if it begins with one. -/
def skipNewline (text : List Char) : List Char :=
  (newline? text).getD text

/-- A string of any form. -/
def readText (text : List Char) : Reading String :=
  let characters :=
    match text with
    | '"' :: '"' :: '"' :: rest => multilineBasicBody (skipNewline rest)
    | '\x27' :: '\x27' :: '\x27' :: rest => multilineLiteralBody (skipNewline rest)
    | '"' :: rest => basicBody rest
    | '\x27' :: rest => literalBody rest
    | _ => .error (.expected "a string")
  characters.map String.ofList

/-! ## Writing -/

/-- The forms of a string. -/
inductive TextForm where
  | basic
  | literal
  | multilineBasic
  | multilineLiteral
  deriving DecidableEq, Repr

/-- Whether a character can only be written as an escape. -/
def isControl (character : Char) : Bool :=
  (character.toNat < 0x20 && character != '\t' && character != '\n') || character.toNat == 0x7F

/-- The length of the longest run of a character, where `current` of them have
just been seen. -/
def longestRun (delimiter : Char) (current : Nat) : List Char → Nat
  | [] => current
  | character :: rest =>
      if character == delimiter then longestRun delimiter (current + 1) rest
      else max current (longestRun delimiter 0 rest)

/-- The form in which a string is written: the first in which it needs no
escapes, and otherwise one with escapes. -/
def TextForm.choose (text : List Char) : TextForm :=
  let plain := !text.any isControl
  let oneLine := !text.contains '\n'
  if plain && oneLine && !text.contains '\\' && !text.contains '"' then .basic
  else if plain && oneLine && !text.contains '\x27' then .literal
  else if plain && !text.contains '\\' && longestRun '"' 0 text ≤ 2 then .multilineBasic
  else if plain && longestRun '\x27' 0 text ≤ 2 then .multilineLiteral
  else if oneLine then .basic
  else .multilineBasic

/-- Four upper-case hexadecimal digits. -/
def fourDigits (code : Nat) : List Char :=
  [code / 4096 % 16, code / 256 % 16, code / 16 % 16, code % 16].map fun digit =>
    (Nat.digitChar digit).toUpper

/-- A character other than the quotation mark where escapes are possible. -/
def writeCharacter (multiline : Bool) (character : Char) : List Char :=
  if character == '\x08' then ['\\', 'b']
  else if character == '\t' then ['\\', 't']
  else if character == '\n' then if multiline then ['\n'] else ['\\', 'n']
  else if character == '\x0c' then ['\\', 'f']
  else if character == '\r' then ['\\', 'r']
  else if character == '\\' then ['\\', '\\']
  else if isControl character then '\\' :: 'u' :: fourDigits character.toNat
  else [character]

/-- A string where escapes are possible. Of a run of quotation marks `allowed`
may stand unescaped; `seen` of them have just been written. -/
def writeEscaped (multiline : Bool) (allowed seen : Nat) : List Char → List Char
  | [] => []
  | character :: rest =>
      if character == '"' then
        if seen < allowed then '"' :: writeEscaped multiline allowed (seen + 1) rest
        else '\\' :: '"' :: writeEscaped multiline allowed 0 rest
      else writeCharacter multiline character ++ writeEscaped multiline allowed 0 rest

/-- A string of several lines begins on a line of its own. -/
def leadingNewline (text : List Char) : List Char :=
  if text.contains '\n' then ['\n'] else []

/-- A string in a given form. -/
def TextForm.write (text : List Char) : TextForm → List Char
  | .basic => '"' :: writeEscaped false 0 0 text ++ ['"']
  | .literal => '\x27' :: text ++ ['\x27']
  | .multilineBasic =>
      ['"', '"', '"'] ++ leadingNewline text ++ writeEscaped true 2 0 text ++ ['"', '"', '"']
  | .multilineLiteral =>
      ['\x27', '\x27', '\x27'] ++ leadingNewline text ++ text ++ ['\x27', '\x27', '\x27']

/-- A string as it is written. -/
def writeText (text : String) : String :=
  String.ofList ((TextForm.choose text.toList).write text.toList)

end Tokenizer.Toml
