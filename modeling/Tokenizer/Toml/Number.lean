import Tokenizer.Toml.Text

/-!
TOML numbers. Integers have 64 bits with a sign; a number with a fraction or an
exponent must not exceed the greatest double-precision number.
-/

namespace Tokenizer.Toml

/-- Further digits of a number. An underscore may stand between two digits and
nowhere else. -/
def moreDigits (isDigit : Char → Bool) : List Char → Option (List Char × List Char)
  | [] => some ([], [])
  | character :: rest =>
      if isDigit character then
        (moreDigits isDigit rest).map fun read => (character :: read.1, read.2)
      else if character == '_' then
        match rest with
        | [] => none
        | digit :: rest =>
            if isDigit digit then
              (moreDigits isDigit rest).map fun read => (digit :: read.1, read.2)
            else none
      else some ([], character :: rest)

/-- One digit or more. -/
def digits? (isDigit : Char → Bool) : List Char → Option (List Char × List Char)
  | [] => none
  | character :: rest =>
      if isDigit character then
        (moreDigits isDigit rest).map fun read => (character :: read.1, read.2)
      else none

/-- The number that digits stand for in a base. -/
def numberOfDigits (base : Nat) (digits : List Char) : Nat :=
  digits.foldl (fun number digit => base * number + (hexDigit? digit).getD 0) 0

/-- An integer of 64 bits with a sign. -/
def integer? (value : Int) : Option Int :=
  if -Int.pow 2 63 ≤ value && value < Int.pow 2 63 then some value else none

/-- An integer as a value, or the problem that it is out of range. -/
def integerValue (value : Int) (rest : List Char) : Reading Value :=
  match integer? value with
  | some value => .ok (.integer value, rest)
  | none => .error (.outOfRange "integer")

/-- Whether `digits * 10 ^ scale` is rounded to infinity in double precision:
whether it lies half a unit or more above the greatest finite number. -/
def roundsToInfinity (digits : Nat) (scale : Int) : Bool :=
  let limit := Nat.pow 2 1024 - Nat.pow 2 970
  let magnitude : Int := (Nat.toDigits 10 digits).length + scale
  if digits = 0 || magnitude < 300 then false
  else if 310 < magnitude then true
  else if 0 ≤ scale then limit ≤ digits * Nat.pow 10 scale.toNat
  else limit * Nat.pow 10 (-scale).toNat ≤ digits

/-- An exponent, if one begins here. -/
def exponent : List Char → Option (Option Int × List Char)
  | [] => some (none, [])
  | character :: rest =>
      if character == 'e' || character == 'E' then
        let sign : Int × List Char := match rest with
          | '+' :: rest => (1, rest)
          | '-' :: rest => (-1, rest)
          | rest => (1, rest)
        (digits? Char.isDigit sign.2).map fun read =>
          (some (sign.1 * numberOfDigits 10 read.1), read.2)
      else some (none, character :: rest)

/-- What was read of a text, as a number with a fraction or an exponent. Only a
positive number can be too great. -/
def floatValue (text : List Char) (negative : Bool) (digits : List Char) (scale : Int)
    (rest : List Char) : Reading Value :=
  if !negative && roundsToInfinity (numberOfDigits 10 digits) scale then
    .error (.outOfRange "floating-point number")
  else .ok (.float (String.ofList (text.take (text.length - rest.length))), rest)

/-- A decimal number whose integer part has been read. -/
def afterInteger (text : List Char) (negative : Bool) (digits rest : List Char) :
    Reading Value :=
  match rest with
  | '.' :: rest =>
      match digits? Char.isDigit rest with
      | none => .error (.expected "a digit")
      | some (fraction, rest) =>
          match exponent rest with
          | none => .error (.expected "an exponent")
          | some (power, rest) =>
              let scale := power.getD 0 - fraction.length
              floatValue text negative (digits ++ fraction) scale rest
  | _ =>
      match exponent rest with
      | none => .error (.expected "an exponent")
      | some (some power, rest) => floatValue text negative digits power rest
      | some (none, rest) =>
          let value : Int := numberOfDigits 10 digits
          integerValue (if negative then -value else value) rest

/-- An integer in another base, after the letter that names the base. -/
def radixInteger (base : Nat) (isDigit : Char → Bool) (text : List Char) : Reading Value :=
  match digits? isDigit text with
  | none => .error (.expected "a digit")
  | some (digits, rest) => integerValue (numberOfDigits base digits) rest

def isOctalDigit (character : Char) : Bool :=
  '0' ≤ character && character ≤ '7'

def isBinaryDigit (character : Char) : Bool :=
  character == '0' || character == '1'

/-- A number without its sign. -/
def unsignedNumber (text : List Char) (negative : Bool) : List Char → Reading Value
  | 'i' :: 'n' :: 'f' :: rest =>
      .ok (.float (String.ofList (text.take (text.length - rest.length))), rest)
  | 'n' :: 'a' :: 'n' :: rest =>
      .ok (.float (String.ofList (text.take (text.length - rest.length))), rest)
  | '0' :: rest => afterInteger text negative ['0'] rest
  | body =>
      match digits? Char.isDigit body with
      | none => .error (.expected "a number")
      | some (digits, rest) => afterInteger text negative digits rest

/-- A number. Only a number without a sign may be in another base, and only
zero may begin with a zero. -/
def readNumber (text : List Char) : Reading Value :=
  match text with
  | '+' :: body => unsignedNumber text false body
  | '-' :: body => unsignedNumber text true body
  | '0' :: 'x' :: digits => radixInteger 16 (fun digit => (hexDigit? digit).isSome) digits
  | '0' :: 'o' :: digits => radixInteger 8 isOctalDigit digits
  | '0' :: 'b' :: digits => radixInteger 2 isBinaryDigit digits
  | body => unsignedNumber text false body

end Tokenizer.Toml
