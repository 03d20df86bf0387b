import Mathlib.Data.Nat.Digits.Defs
import Tokenizer.Toml.Key
import Tokenizer.Toml.Layout

/-!
TOML documents of settings, as the language has them.

What the language leaves open is left open: blanks, comments and line ends, the forms of strings
and numbers, quotation marks around names, and tables under a header, by dotted keys or inline.
Settings are Booleans, natural numbers, strings and lists of strings. A document with other values,
or with arrays of tables, holds more than settings.
-/

namespace Tokenizer.Toml

/-! ### Blanks and comments -/

def Blanks (text : List Char) : Prop :=
  ∀ character ∈ text, character = ' ' ∨ character = '\t'

/-- Whether a character may stand for itself in a comment or a string. Of the controls only the
tab may. -/
def Printable (character : Char) : Prop :=
  character = '\t' ∨ (32 ≤ character.toNat ∧ character.toNat ≠ 127)

def LineEnd (text : List Char) : Prop :=
  text = ['\n'] ∨ text = ['\r', '\n']

/-- A comment, without the end of its line. -/
def Comment (text : List Char) : Prop :=
  ∃ remark, text = '#' :: remark ∧ ∀ character ∈ remark, Printable character

/-- Blanks and line ends, and comments where they are possible. -/
inductive Gap (comments : Bool) : List Char → Prop where
  | nil : Gap comments []
  | blank {character : Char} {text : List Char} : character = ' ' ∨ character = '\t' →
      Gap comments text → Gap comments (character :: text)
  | lineEnd {ending text : List Char} : LineEnd ending → Gap comments text →
      Gap comments (ending ++ text)
  | comment {comment ending text : List Char} : comments = true → Comment comment →
      LineEnd ending → Gap comments text → Gap comments (comment ++ (ending ++ text))

/-! ### Numbers -/

/-- A digit of a base with its value. From ten on the digits are letters, in either case. -/
def IsDigit (base value : Nat) (digit : Char) : Prop :=
  value < base ∧ (digit = Nat.digitChar value ∨ digit = (Nat.digitChar value).toUpper)

/-- The number that the values of digits make, the first of which counts most. -/
def number (base : Nat) (values : List Nat) : Nat :=
  Nat.ofDigits base values.reverse

/-- Digits with their values. An underscore may stand between two of them. -/
inductive Digits (base : Nat) : List Nat → List Char → Prop where
  | last {value : Nat} {digit : Char} : IsDigit base value digit → Digits base [value] [digit]
  | next {value : Nat} {values : List Nat} {digit : Char} {letters : List Char} :
      IsDigit base value digit → Digits base values letters →
      Digits base (value :: values) (digit :: letters)
  | underscore {value : Nat} {values : List Nat} {digit : Char} {letters : List Char} :
      IsDigit base value digit → Digits base values letters →
      Digits base (value :: values) (digit :: '_' :: letters)

/-- The forms of a natural number. -/
inductive NaturalWritten (value : Nat) : List Char → Prop where
  /-- Only zero begins with a zero. -/
  | decimal {sign letters : List Char} {values : List Nat} : sign = [] ∨ sign = ['+'] →
      Digits 10 values letters → (letters.head? = some '0' → letters = ['0']) →
      number 10 values = value → NaturalWritten value (sign ++ letters)
  | negativeZero : value = 0 → NaturalWritten value ['-', '0']
  | radix {mark : Char} {base : Nat} {letters : List Char} {values : List Nat} :
      (mark, base) ∈ [('x', 16), ('o', 8), ('b', 2)] → Digits base values letters →
      number base values = value → NaturalWritten value ('0' :: mark :: letters)

/-! ### Strings -/

namespace TextForm

def delimiter : TextForm → Char
  | .basic | .multilineBasic => '"'
  | .literal | .multilineLiteral => '\x27'

def hasEscapes : TextForm → Bool
  | .basic | .multilineBasic => true
  | .literal | .multilineLiteral => false

def isMultiline : TextForm → Bool
  | .basic | .literal => false
  | .multilineBasic | .multilineLiteral => true

end TextForm

/-- The letters that stand behind a backslash for another character. -/
def escapes : List (Char × Char) :=
  [('b', '\x08'), ('t', '\t'), ('n', '\n'), ('f', '\x0c'), ('r', '\r'), ('"', '"'), ('\\', '\\')]

/-- What may stand behind a backslash for a character. -/
inductive Escape (character : Char) : List Char → Prop where
  | short {letter : Char} : (letter, character) ∈ escapes → Escape character [letter]
  | code {mark : Char} {count : Nat} {values : List Nat} {digits : List Char} :
      (mark, count) ∈ [('u', 4), ('U', 8)] → digits.length = count →
      List.Forall₂ (IsDigit 16) values digits → number 16 values = character.toNat →
      Escape character (mark :: digits)

/-- A text as it stands between the delimiters of a form, behind `seen` delimiters that belong to
the text. -/
inductive Body (form : TextForm) : Nat → List Char → List Char → Prop where
  | nil {seen : Nat} : Body form seen [] []
  | plain {seen : Nat} {character : Char} {text letters : List Char} : Printable character →
      character ≠ form.delimiter → (form.hasEscapes = true → character ≠ '\\') →
      Body form 0 text letters → Body form seen (character :: text) (character :: letters)
  | escape {seen : Nat} {character : Char} {code text letters : List Char} :
      form.hasEscapes = true → Escape character code → Body form 0 text letters →
      Body form seen (character :: text) ('\\' :: (code ++ letters))
  /-- Three delimiters in a row would close the string. -/
  | delimiter {seen : Nat} {text letters : List Char} : form.isMultiline = true → seen < 2 →
      Body form (seen + 1) text letters →
      Body form seen (form.delimiter :: text) (form.delimiter :: letters)
  | lineEnd {seen : Nat} {ending text letters : List Char} : form.isMultiline = true →
      LineEnd ending → Body form 0 text letters → Body form seen ('\n' :: text) (ending ++ letters)
  /-- A backslash at the end of a line takes all blanks and line ends with it. -/
  | continuation {seen : Nat} {blanks ending indentation text letters : List Char} :
      form = .multilineBasic → Blanks blanks → LineEnd ending → Gap false indentation →
      (∀ character ∈ letters.head?, character ∉ [' ', '\t', '\n', '\r']) →
      Body form 0 text letters →
      Body form seen text ('\\' :: (blanks ++ (ending ++ (indentation ++ letters))))

/-- The forms of a string. A line end right behind three delimiters is no part of it. -/
inductive TextWritten (text : String) : List Char → Prop where
  | line {form : TextForm} {body : List Char} : form.isMultiline = false →
      Body form 0 text.toList body → TextWritten text (form.delimiter :: (body ++ [form.delimiter]))
  | lines {form : TextForm} {opening body : List Char} : form.isMultiline = true →
      (LineEnd opening ∨ opening = [] ∧ ∀ ending, LineEnd ending → ¬ending <+: body) →
      Body form 0 text.toList body →
      TextWritten text (List.replicate 3 form.delimiter ++
        (opening ++ (body ++ List.replicate 3 form.delimiter)))

/-! ### Keys -/

def BareCharacter (character : Char) : Prop :=
  ('a' ≤ character ∧ character ≤ 'z') ∨ ('A' ≤ character ∧ character ≤ 'Z') ∨
    ('0' ≤ character ∧ character ≤ '9') ∨ character = '-' ∨ character = '_'

/-- The forms of a name: bare, or a string of one line. -/
inductive NameWritten (name : String) : List Char → Prop where
  | bare : name ≠ "" → (∀ character ∈ name.toList, BareCharacter character) →
      NameWritten name name.toList
  | quoted {form : TextForm} {body : List Char} : form.isMultiline = false →
      Body form 0 name.toList body → NameWritten name (form.delimiter :: (body ++ [form.delimiter]))

/-- Names with points between them, and blanks around the points. -/
inductive KeyWritten : Key → List Char → Prop where
  | last {name : String} {letters : List Char} : NameWritten name letters →
      KeyWritten ⟨[], name⟩ letters
  | dotted {first : String} {key : Key} {letters before behind others : List Char} :
      NameWritten first letters → Blanks before → Blanks behind → KeyWritten key others →
      KeyWritten ⟨first :: key.path, key.name⟩ (letters ++ (before ++ '.' :: (behind ++ others)))

/-- A key and a value with an equals sign between them. -/
inductive Assigned (key : Key) (value : List Char) : List Char → Prop where
  | intro {name before behind : List Char} : KeyWritten key name → Blanks before → Blanks behind →
      Assigned key value (name ++ (before ++ '=' :: (behind ++ value)))

/-! ### Values -/

/-- The strings of a list up to its closing bracket. A comma may follow the last one. -/
inductive ItemsWritten : List String → List Char → Prop where
  | nil {gap : List Char} : Gap true gap → ItemsWritten [] (gap ++ [']'])
  | last {value : String} {before letters behind : List Char} : Gap true before →
      TextWritten value letters → Gap true behind →
      ItemsWritten [value] (before ++ (letters ++ (behind ++ [']'])))
  | next {value : String} {values : List String} {before letters behind others : List Char} :
      Gap true before → TextWritten value letters → Gap true behind → ItemsWritten values others →
      ItemsWritten (value :: values) (before ++ (letters ++ (behind ++ ',' :: others)))

/-- The forms of a setting. Numbers are signed integers of 64 bits. -/
inductive Setting.Written : Setting → List Char → Prop where
  | holds : Written (.boolean true) ['t', 'r', 'u', 'e']
  | fails : Written (.boolean false) ['f', 'a', 'l', 's', 'e']
  | natural {value : Nat} {letters : List Char} : value < 2 ^ 63 → NaturalWritten value letters →
      Written (.natural value) letters
  | text {value : String} {letters : List Char} : TextWritten value letters →
      Written (.text value) letters
  | texts {values : List String} {letters : List Char} : ItemsWritten values letters →
      Written (.texts values) ('[' :: letters)

/-- The members of an inline table up to its closing brace. -/
inductive MembersWritten : List (Key × Setting) → List Char → Prop where
  | last {key : Key} {setting : Setting} {value before letters behind : List Char} :
      Blanks before → setting.Written value → Assigned key value letters → Blanks behind →
      MembersWritten [(key, setting)] (before ++ (letters ++ (behind ++ ['\x7d'])))
  | next {key : Key} {setting : Setting} {members : List (Key × Setting)}
      {value before letters behind others : List Char} :
      Blanks before → setting.Written value → Assigned key value letters → Blanks behind →
      MembersWritten members others →
      MembersWritten ((key, setting) :: members) (before ++ (letters ++ (behind ++ ',' :: others)))

/-- What is assigned to a key: a setting, or an inline table of settings. -/
inductive Content where
  | setting (setting : Setting)
  | inlineTable (members : List (Key × Setting))

inductive Content.Written : Content → List Char → Prop where
  | setting {setting : Setting} {letters : List Char} : setting.Written letters →
      Written (.setting setting) letters
  | empty {blanks : List Char} : Blanks blanks →
      Written (.inlineTable []) ('\x7b' :: (blanks ++ ['\x7d']))
  | inlineTable {members : List (Key × Setting)} {letters : List Char} :
      MembersWritten members letters → Written (.inlineTable members) ('\x7b' :: letters)

/-! ### Documents -/

/-- A statement of a document. -/
inductive Clause where
  | assignment (key : Key) (content : Content)
  | header (key : Key)

inductive Clause.Written : Clause → List Char → Prop where
  | assignment {key : Key} {content : Content} {value letters : List Char} :
      content.Written value → Assigned key value letters →
      Written (.assignment key content) letters
  | header {key : Key} {before letters behind : List Char} : Blanks before →
      KeyWritten key letters → Blanks behind →
      Written (.header key) ('[' :: (before ++ (letters ++ (behind ++ [']']))))

/-- What may stand behind a statement on its line. -/
def Remark (text : List Char) : Prop :=
  ∃ blanks comment, text = blanks ++ comment ∧ Blanks blanks ∧ (comment = [] ∨ Comment comment)

/-- The statements of a document, each on a line of its own. The last line need not be ended. -/
inductive DocumentWritten : List Clause → List Char → Prop where
  | nil {gap remark : List Char} : Gap true gap → Remark remark →
      DocumentWritten [] (gap ++ remark)
  | last {clause : Clause} {gap letters remark : List Char} : Gap true gap →
      clause.Written letters → Remark remark → DocumentWritten [clause] (gap ++ (letters ++ remark))
  | next {clause : Clause} {clauses : List Clause}
      {gap letters remark ending others : List Char} :
      Gap true gap → clause.Written letters → Remark remark → LineEnd ending →
      DocumentWritten clauses others →
      DocumentWritten (clause :: clauses) (gap ++ (letters ++ (remark ++ (ending ++ others))))

end Tokenizer.Toml
