import Tokenizer.Text.Printable

/-!
Quoted text for messages: the text between two delimiters, with a backslash
form for whatever would be invisible or would end the text early.
-/

namespace Tokenizer.Text

/-- A code point in lower-case hexadecimal without padding. -/
def hexadecimal (code : Nat) : String :=
  String.ofList (Nat.toDigits 16 code)

/-- One character inside text delimited by `delimiter`. -/
def escapeWithin (delimiter character : Char) : String :=
  if character == '\x00' then "\\0"
  else if character == '\t' then "\\t"
  else if character == '\n' then "\\n"
  else if character == '\r' then "\\r"
  else if character == '\\' then "\\\\"
  else if character == delimiter then "\\" ++ String.singleton delimiter
  else if isPrintable character then String.singleton character
  else "\\u\x7b" ++ hexadecimal character.toNat ++ "\x7d"

/-- Text between double quotes. -/
def quote (text : String) : String :=
  "\"" ++ String.join (text.toList.map (escapeWithin '"')) ++ "\""

/-- A character between apostrophes. -/
def quoteCharacter (character : Char) : String :=
  "'" ++ escapeWithin '\x27' character ++ "'"

end Tokenizer.Text
