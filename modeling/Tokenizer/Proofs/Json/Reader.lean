/-!
A reader for JSON, for the whole of its grammar.

The reader knows nothing of the layout in which reports are written: blanks may stand around
every value and every mark, every character may be escaped, and numbers may have a sign, a
fraction and an exponent. What it refuses is no JSON document.
-/

namespace Tokenizer.Json

/-- What a JSON document says. -/
inductive Value where
  | null
  | boolean (truth : Bool)
  /-- The number `digits * 10 ^ exponent`. -/
  | number (digits exponent : Int)
  | string (text : String)
  | array (items : List Value)
  | object (members : List (String × Value))

/-- The four characters that may stand around values and marks. -/
def isBlank (character : Char) : Bool :=
  character == ' ' || character == '\t' || character == '\n' || character == '\r'

def skipBlanks (text : List Char) : List Char :=
  text.dropWhile isBlank

/-! ### Strings -/

def simpleEscape? : Char → Option Char
  | '"' => some '"'
  | '\\' => some '\\'
  | '/' => some '/'
  | 'b' => some '\x08'
  | 'f' => some '\x0c'
  | 'n' => some '\n'
  | 'r' => some '\r'
  | 't' => some '\t'
  | _ => none

/-- The value of a hexadecimal digit, in either case. -/
def hexDigit? (character : Char) : Option Nat :=
  if character.isDigit then some (character.toNat - '0'.toNat)
  else if 'a' ≤ character && character ≤ 'f' then some (character.toNat - 'a'.toNat + 10)
  else if 'A' ≤ character && character ≤ 'F' then some (character.toNat - 'A'.toNat + 10)
  else none

def hexNumber? (digits : List Char) : Option Nat :=
  digits.foldlM (fun number digit => (hexDigit? digit).map fun value => 16 * number + value) 0

/-- The number that four hexadecimal digits stand for. -/
def unit? : List Char → Option (Nat × List Char)
  | first :: second :: third :: fourth :: rest =>
      (hexNumber? [first, second, third, fourth]).map fun unit => (unit, rest)
  | _ => none

def lowSurrogate? : List Char → Option (Nat × List Char)
  | '\\' :: 'u' :: rest =>
      (unit? rest).filter fun read => 0xdc00 ≤ read.1 && read.1 ≤ 0xdfff
  | _ => none

/-- The character that one or two units stand for. A surrogate by itself stands for none. -/
def unicodeEscape? (text : List Char) : Option (Char × List Char) :=
  match unit? text with
  | none => none
  | some (unit, rest) =>
      -- Only a high surrogate goes together with what is behind it.
      if 0xd800 ≤ unit && unit ≤ 0xdbff then
        (lowSurrogate? rest).map fun read =>
          (Char.ofNat (0x10000 + (unit - 0xd800) * 0x400 + (read.1 - 0xdc00)), read.2)
      else if unit.isValidChar then some (Char.ofNat unit, rest)
      else none

def escape? : List Char → Option (Char × List Char)
  | [] => none
  | character :: rest =>
      if character == 'u' then unicodeEscape? rest
      else (simpleEscape? character).map fun meant => (meant, rest)

theorem length_of_unit? {text rest : List Char} {unit : Nat}
    (read : unit? text = some (unit, rest)) : rest.length < text.length := by
  unfold unit? at read
  split at read
  · obtain ⟨_, _, same⟩ := Option.map_eq_some_iff.mp read
    cases same
    simp only [List.length_cons]
    omega
  · cases read

theorem length_of_lowSurrogate? {text : List Char} {read : Nat × List Char}
    (found : lowSurrogate? text = some read) : read.2.length < text.length := by
  unfold lowSurrogate? at found
  split at found
  · have shorter := length_of_unit? (Option.filter_eq_some_iff.mp found).1
    simp only [List.length_cons]
    omega
  · cases found

theorem length_of_unicodeEscape? {text rest : List Char} {character : Char}
    (read : unicodeEscape? text = some (character, rest)) : rest.length < text.length := by
  unfold unicodeEscape? at read
  split at read
  · cases read
  · next unit following isUnit =>
      have shorter := length_of_unit? isUnit
      split at read
      · obtain ⟨low, found, same⟩ := Option.map_eq_some_iff.mp read
        rw [← (Prod.mk.inj same).2]
        exact Nat.lt_trans (length_of_lowSurrogate? found) shorter
      · split at read
        · cases read
          exact shorter
        · cases read

theorem length_of_escape? {text rest : List Char} {character : Char}
    (read : escape? text = some (character, rest)) : rest.length < text.length := by
  cases text with
  | nil => cases read
  | cons first following =>
      simp only [escape?] at read
      split at read
      · exact Nat.lt_succ_of_lt (length_of_unicodeEscape? read)
      · obtain ⟨_, _, same⟩ := Option.map_eq_some_iff.mp read
        cases same
        exact Nat.lt_succ_self _

/-- A string after its opening quotation mark, up to the closing one. -/
def readCharacters (text : List Char) : Option (List Char × List Char) :=
  match text with
  | [] => none
  | character :: rest =>
      if character == '"' then some ([], rest)
      else if character == '\\' then
        match _escaped : escape? rest with
        | none => none
        | some (meant, rest) => (readCharacters rest).map fun read => (meant :: read.1, read.2)
      -- What the grammar forbids to stand for itself.
      else if character.toNat < 0x20 then none
      else (readCharacters rest).map fun read => (character :: read.1, read.2)
termination_by text.length
decreasing_by
  · have := length_of_escape? _escaped
    simp only [List.length_cons]
    omega
  · simp

/-! ### Numbers -/

/-- Digits, at least one and as many as there are. -/
def readDigits (text : List Char) : Option (List Char × List Char) :=
  if (text.takeWhile Char.isDigit).isEmpty then none
  else some (text.takeWhile Char.isDigit, text.dropWhile Char.isDigit)

/-- The digits before a decimal point. The first of several is no zero. -/
def readWhole (text : List Char) : Option (List Char × List Char) :=
  (readDigits text).filter fun read => read.1 == ['0'] || read.1.head? != some '0'

/-- The digits after a decimal point, if there is one. -/
def readFraction : List Char → Option (List Char × List Char)
  | '.' :: rest => readDigits rest
  | text => some ([], text)

def numberOfDigits (digits : List Char) : Int :=
  Nat.ofDigitChars 10 digits 0

def readSigned : List Char → Option (Int × List Char)
  | '-' :: rest => (readDigits rest).map fun read => (-numberOfDigits read.1, read.2)
  | '+' :: rest => (readDigits rest).map fun read => (numberOfDigits read.1, read.2)
  | text => (readDigits text).map fun read => (numberOfDigits read.1, read.2)

def readExponent : List Char → Option (Int × List Char)
  | 'e' :: rest => readSigned rest
  | 'E' :: rest => readSigned rest
  | text => some (0, text)

def readMagnitude (text : List Char) : Option ((Int × Int) × List Char) := do
  let (whole, rest) ← readWhole text
  let (fraction, rest) ← readFraction rest
  let (exponent, rest) ← readExponent rest
  return ((numberOfDigits (whole ++ fraction), exponent - fraction.length), rest)

def readNumber : List Char → Option (Value × List Char)
  | '-' :: rest =>
      (readMagnitude rest).map fun read => (.number (-read.1.1) read.1.2, read.2)
  | text => (readMagnitude text).map fun read => (.number read.1.1 read.1.2, read.2)

/-! ### Values -/

section Elements

variable {Element : Type} (element : List Char → Option (Element × List Char)) (closing : Char)

def readElements : Nat → List Char → Option (List Element × List Char)
  | 0, _ => none
  | bound + 1, text =>
      match element text with
      | none => none
      | some (first, rest) =>
          match skipBlanks rest with
          | [] => none
          | mark :: rest =>
              if mark == ',' then
                (readElements bound rest).map fun read => (first :: read.1, read.2)
              else if mark == closing then some ([first], rest)
              else none

/-- Elements after the mark that opens them. Each of them takes a character at least, so there
are no more of them than characters. -/
def readContainer (text : List Char) : Option (List Element × List Char) :=
  match skipBlanks text with
  | [] => none
  | mark :: rest =>
      if mark == closing then some ([], rest)
      else readElements element closing text.length text

end Elements

def readMember (value : List Char → Option (Value × List Char)) (text : List Char) :
    Option ((String × Value) × List Char) :=
  match skipBlanks text with
  | '"' :: rest =>
      match readCharacters rest with
      | none => none
      | some (name, rest) =>
          match skipBlanks rest with
          | ':' :: rest =>
              (value rest).map fun read => ((String.ofList name, read.1), read.2)
          | _ => none
  | _ => none

def readValueWithin : Nat → List Char → Option (Value × List Char)
  | 0, _ => none
  | depth + 1, text =>
      match skipBlanks text with
      | '"' :: rest =>
          (readCharacters rest).map fun read => (.string (String.ofList read.1), read.2)
      | '[' :: rest =>
          (readContainer (readValueWithin depth) ']' rest).map fun read =>
            (.array read.1, read.2)
      | '\x7b' :: rest =>
          (readContainer (readMember (readValueWithin depth)) '\x7d' rest).map fun read =>
            (.object read.1, read.2)
      | 't' :: 'r' :: 'u' :: 'e' :: rest => some (.boolean true, rest)
      | 'f' :: 'a' :: 'l' :: 's' :: 'e' :: rest => some (.boolean false, rest)
      | 'n' :: 'u' :: 'l' :: 'l' :: rest => some (.null, rest)
      | text => readNumber text

/-- The value of a document. No value is nested deeper than the document is long. -/
def read? (document : String) : Option Value :=
  match readValueWithin document.length document.toList with
  | none => none
  | some (value, rest) => if rest.all isBlank then some value else none

/-! Documents are read in any layout, and what is not quite a document is refused. -/

example : read? " [-2.50e+1 ,\t\"\\uD83D\\ude00\"] " =
    some (.array [.number (-250) (-1), .string "😀"]) := by cbv

example : read? "[1,]" = none ∧ read? "[01]" = none ∧ read? "[1] 2" = none := by cbv

end Tokenizer.Json
