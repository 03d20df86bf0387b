import Tokenizer.Toml.Value

/-!
TOML dates and times: a date, a time of day, or both with a distance from
universal time.
-/

namespace Tokenizer.Toml

/-- A number of exactly so many digits. -/
def fixedDigits? (count : Nat) (text : List Char) : Option (Nat × List Char) :=
  let digits := text.take count
  if digits.length = count && digits.all Char.isDigit then
    some (digits.foldl (fun number digit => 10 * number + (digit.toNat - '0'.toNat)) 0,
      text.drop count)
  else none

/-- A number of two digits within bounds. -/
def twoDigits? (least greatest : Nat) (text : List Char) : Option (Nat × List Char) :=
  (fixedDigits? 2 text).filter fun read => least ≤ read.1 && read.1 ≤ greatest

/-- The rest of a text after the character that it begins with. -/
def after? (expected : Char) : List Char → Option (List Char)
  | [] => none
  | character :: rest => if character == expected then some rest else none

def isLeapYear (year : Nat) : Bool :=
  year % 4 == 0 && (year % 100 != 0 || year % 400 == 0)

def daysInMonth (year month : Nat) : Nat :=
  if month = 2 then if isLeapYear year then 29 else 28
  else if month = 4 || month = 6 || month = 9 || month = 11 then 30
  else 31

/-- The rest of a text after a date of the calendar. -/
def date? (text : List Char) : Option (List Char) := do
  let (year, rest) ← fixedDigits? 4 text
  let rest ← after? '-' rest
  let (month, rest) ← twoDigits? 1 12 rest
  let rest ← after? '-' rest
  let (_, rest) ← twoDigits? 1 (daysInMonth year month) rest
  return rest

/-- The rest of a text after a fraction of a second, if there is one. -/
def skipSecondFraction : List Char → List Char
  | '.' :: digit :: rest =>
      if digit.isDigit then rest.dropWhile Char.isDigit else '.' :: digit :: rest
  | rest => rest

/-- The rest of a text after a time of day. A minute may have a leap second. -/
def time? (text : List Char) : Option (List Char) := do
  let (_, rest) ← twoDigits? 0 23 text
  let rest ← after? ':' rest
  let (_, rest) ← twoDigits? 0 59 rest
  let rest ← after? ':' rest
  let (_, rest) ← twoDigits? 0 60 rest
  return skipSecondFraction rest

/-- The rest of a text after a distance from universal time. -/
def offset? : List Char → Option (List Char)
  | [] => none
  | character :: rest =>
      if character == 'Z' || character == 'z' then some rest
      else if character == '+' || character == '-' then do
        let (_, rest) ← twoDigits? 0 23 rest
        let rest ← after? ':' rest
        let (_, rest) ← twoDigits? 0 59 rest
        return rest
      else none

/-- The rest of a text after a date, a time of day, or a date and a time. -/
def dateTime? (text : List Char) : Option (List Char) :=
  match date? text with
  | none => time? text
  | some [] => some []
  | some (character :: rest) =>
      if character == 'T' || character == 't' || character == ' ' then
        match time? rest with
        | some following => some ((offset? following).getD following)
        | none => some (character :: rest)
      else some (character :: rest)

end Tokenizer.Toml
