import Tokenizer.Proofs.Text.Ascii
import Tokenizer.Proofs.Toml.Gap
import Tokenizer.Toml.Reader

/-!
Every form of a natural number is read as this number.

A number ends where a character follows that can belong to none, and no number begins like a date
or a time of day.
-/

namespace Tokenizer.Toml

variable {base value count : Nat} {values : List Nat} {digit character : Char}
  {letters digits sign text rest : List Char}

/-! ### Digits -/

/-- What holds of the digits of a base is found by looking at each of them. -/
theorem test_of_isDigit {test : Char → Bool}
    (all : ∀ value < base, test (Nat.digitChar value) = true ∧
      test (Nat.digitChar value).toUpper = true)
    (isDigit : IsDigit base value digit) : test digit = true := by
  obtain ⟨within, rfl | rfl⟩ := isDigit
  · exact (all value within).1
  · exact (all value within).2

theorem hexDigit?_of_isDigit (isDigit : IsDigit base value digit) (small : base ≤ 16) :
    hexDigit? digit = some value := by
  have all : ∀ value < 16, hexDigit? (Nat.digitChar value) = some value ∧
      hexDigit? (Nat.digitChar value).toUpper = some value := by decide
  obtain ⟨within, rfl | rfl⟩ := isDigit
  · exact (all value (Nat.lt_of_lt_of_le within small)).1
  · exact (all value (Nat.lt_of_lt_of_le within small)).2

theorem number_eq_foldl (base : Nat) (values : List Nat) :
    number base values = values.foldl (fun number value => base * number + value) 0 := by
  rw [number, Nat.ofDigits_eq_foldr, List.foldr_reverse]
  congr 1
  funext number value
  simp [Nat.add_comm]

/-- The reader's sum over the digits is the number that their values make. -/
theorem foldl_values {change : Nat → Nat → Nat} {step : Nat → Char → Nat}
    (same : ∀ number value digit, IsDigit base value digit →
      step number digit = change number value)
    (areDigits : List.Forall₂ (IsDigit base) values digits) (start : Nat) :
    digits.foldl step start = values.foldl change start := by
  induction areDigits generalizing start with
  | nil => rfl
  | cons isDigit _ inductionHypothesis =>
      rw [List.foldl_cons, List.foldl_cons, same _ _ _ isDigit, inductionHypothesis]

theorem numberOfDigits_eq (small : base ≤ 16)
    (areDigits : List.Forall₂ (IsDigit base) values digits) :
    numberOfDigits base digits = number base values := by
  rw [number_eq_foldl, numberOfDigits]
  refine foldl_values ?_ areDigits 0
  intro number value digit isDigit
  rw [hexDigit?_of_isDigit isDigit small, Option.getD_some]

theorem hexNumber?_eq (areDigits : List.Forall₂ (IsDigit 16) values digits) :
    hexNumber? digits = some (number 16 values) := by
  rw [number_eq_foldl, hexNumber?]
  generalize 0 = start
  induction areDigits generalizing start with
  | nil => rfl
  | cons isDigit _ inductionHypothesis =>
      rw [List.foldlM_cons, hexDigit?_of_isDigit isDigit (Nat.le_refl 16), List.foldl_cons,
        ← inductionHypothesis]
      rfl

theorem exists_of_digits (written : Digits base values letters) :
    ∃ value digit others, IsDigit base value digit ∧ letters = digit :: others := by
  cases written with
  | last isDigit => exact ⟨_, _, _, isDigit, rfl⟩
  | next isDigit => exact ⟨_, _, _, isDigit, rfl⟩
  | underscore isDigit => exact ⟨_, _, _, isDigit, rfl⟩

section Digits

variable {test : Char → Bool}

theorem moreDigits_of_stop (stops : ∀ character ∈ rest.head?, test character = false)
    (noUnderscore : rest.head? ≠ some '_') : moreDigits test rest = some ([], rest) := by
  cases rest with
  | nil => rw [moreDigits]
  | cons character rest =>
      have outside : test character = false := stops character rfl
      have different : character ≠ '_' := fun same => noUnderscore (congrArg some same)
      rw [moreDigits.eq_def]
      simp [outside, different]

theorem moreDigits_of_digits? {read : List Char × List Char}
    (found : digits? test text = some read) : moreDigits test text = some read := by
  cases text with
  | nil => cases found
  | cons digit text =>
      rw [digits?] at found
      rw [moreDigits.eq_def]
      split at found
      · next isDigit =>
          simp only [isDigit, if_true]
          exact found
      · cases found

theorem moreDigits_underscore {read : List Char × List Char} (outside : test '_' = false)
    (first : digits? test text = some read) : moreDigits test ('_' :: text) = some read := by
  cases text with
  | nil => cases first
  | cons digit text =>
      rw [digits?] at first
      rw [moreDigits.eq_def]
      simp only [outside, Bool.false_eq_true, if_false, beq_self_eq_true, if_true]
      exact first

/-- The digits are read without the underscores between them, up to where they end. -/
theorem exists_digits? (written : Digits base values letters)
    (tests : ∀ value digit, IsDigit base value digit → test digit = true)
    (outside : test '_' = false) (stops : ∀ character ∈ rest.head?, test character = false)
    (noUnderscore : rest.head? ≠ some '_') :
    ∃ digits, List.Forall₂ (IsDigit base) values digits ∧
      digits? test (letters ++ rest) = some (digits, rest) := by
  have first {value : Nat} {digit : Char} (isDigit : IsDigit base value digit)
      (text : List Char) : digits? test (digit :: text) =
        (moreDigits test text).map fun read => (digit :: read.1, read.2) := by
    rw [digits?, if_pos (tests value digit isDigit)]
  induction written with
  | last isDigit =>
      refine ⟨_, .cons isDigit .nil, ?_⟩
      rw [List.singleton_append, first isDigit, moreDigits_of_stop stops noUnderscore]
      rfl
  | next isDigit _ inductionHypothesis =>
      obtain ⟨digits, areDigits, others⟩ := inductionHypothesis
      refine ⟨_, .cons isDigit areDigits, ?_⟩
      rw [List.cons_append, first isDigit, moreDigits_of_digits? others]
      rfl
  | underscore isDigit _ inductionHypothesis =>
      obtain ⟨digits, areDigits, others⟩ := inductionHypothesis
      refine ⟨_, .cons isDigit areDigits, ?_⟩
      rw [List.cons_append, List.cons_append, first isDigit, moreDigits_underscore outside others]
      rfl

end Digits

/-! ### Where a number ends -/

/-- What may follow a value. -/
def Ends (rest : List Char) : Prop :=
  ∀ character ∈ rest.head?, character ∈ [' ', '\t', '\n', '\r', ',', ']', '\x7d', '#']

theorem Ends.head?_ne (ends : Ends rest)
    (foreign : character ∉ [' ', '\t', '\n', '\r', ',', ']', '\x7d', '#']) :
    rest.head? ≠ some character :=
  fun same => foreign (ends character same)

theorem Ends.stops {test : Char → Bool} (ends : Ends rest)
    (outside : [' ', '\t', '\n', '\r', ',', ']', '\x7d', '#'].all (fun character =>
      !test character) = true) :
    ∀ character ∈ rest.head?, test character = false := by
  intro character first
  simpa using List.all_eq_true.mp outside character (ends character first)

theorem after?_of_fixedDigits? {read : Nat × List Char}
    (noMark : (text.dropWhile Char.isDigit).head? ≠ some character)
    (noDigit : character.isDigit = false) (fixed : fixedDigits? count text = some read) :
    after? character read.2 = none := by
  simp only [fixedDigits?, Bool.and_eq_true] at fixed
  split at fixed
  · next full =>
      cases fixed
      cases behind : text.drop count with
      | nil => rfl
      | cons first others =>
          have different : first ≠ character := by
            rintro rfl
            have parts : text = text.take count ++ first :: others := by
              rw [← behind, List.take_append_drop]
            rw [parts, List.dropWhile_append_of_pos (List.all_eq_true.mp full.2),
              List.dropWhile_cons_of_neg (by simp [noDigit])] at noMark
            exact noMark rfl
          rw [after?, if_neg (by simpa using different)]
  · cases fixed

/-- A text does not begin with a date or a time if its first digits are followed by neither of
their marks. -/
theorem dateTime?_eq_none (noDash : (text.dropWhile Char.isDigit).head? ≠ some '-')
    (noColon : (text.dropWhile Char.isDigit).head? ≠ some ':') : dateTime? text = none := by
  have date : date? text = none := by
    rw [date?]
    cases fixed : fixedDigits? 4 text with
    | none => rfl
    | some read => simp [after?_of_fixedDigits? noDash rfl fixed]
  have time : time? text = none := by
    rw [time?]
    cases fixed : twoDigits? 0 23 text with
    | none => rfl
    | some read =>
        simp [after?_of_fixedDigits? noColon rfl (Option.filter_eq_some_iff.mp fixed).1]
  rw [dateTime?, date, time]

theorem dateTime?_of_not_isDigit (noDigit : character.isDigit = false) (rest : List Char) :
    dateTime? (character :: rest) = none := by
  simp [dateTime?, date?, time?, twoDigits?, fixedDigits?, noDigit]

/-! ### The forms of a number -/

theorem integerValue_of_lt (inRange : value < 2 ^ 63) (rest : List Char) :
    integerValue value rest = .ok (.integer value, rest) := by
  have bounded : (-Int.pow 2 63 ≤ (value : Int) && (value : Int) < Int.pow 2 63) = true := by
    have limit : Int.pow 2 63 = (2 ^ 63 : Nat) := by decide
    rw [limit, Bool.and_eq_true, decide_eq_true_eq, decide_eq_true_eq]
    omega
  rw [integerValue, integer?, if_pos bounded]

theorem afterInteger_of_ends (ends : Ends rest) (text : List Char) (negative : Bool)
    (digits : List Char) :
    afterInteger text negative digits rest =
      integerValue (if negative then -(numberOfDigits 10 digits : Int)
        else numberOfDigits 10 digits) rest := by
  have noPoint (more : List Char) : rest ≠ '.' :: more := by
    rintro rfl
    exact absurd (ends '.' rfl) (by simp)
  have noExponent : exponent rest = some (none, rest) := by
    cases rest with
    | nil => rfl
    | cons first others =>
        have different : first ≠ 'e' ∧ first ≠ 'E' := by
          constructor <;>
            · rintro rfl
              exact ends.head?_ne (by simp) rfl
        simp [exponent, different]
  unfold afterInteger
  split
  · next more => exact absurd rfl (noPoint more)
  · rw [noExponent]

theorem unsignedNumber_zero (text rest : List Char) (negative : Bool) :
    unsignedNumber text negative ('0' :: rest) = afterInteger text negative ['0'] rest :=
  rfl

theorem unsignedNumber_of_ne_zero (text rest : List Char) (negative : Bool)
    (isDigit : character.isDigit = true) (notZero : character ≠ '0') :
    unsignedNumber text negative (character :: rest) =
      match digits? Char.isDigit (character :: rest) with
      | none => .error (.expected "a number")
      | some (digits, rest) => afterInteger text negative digits rest := by
  have different {other : Char} (noDigit : other.isDigit = false) : character ≠ other :=
    Text.ne_of_class Char.isDigit isDigit noDigit
  unfold unsignedNumber
  split
  · next same => exact absurd (List.cons.inj same).1 (different rfl)
  · next same => exact absurd (List.cons.inj same).1 (different rfl)
  · next same => exact absurd (List.cons.inj same).1 notZero
  · rfl

theorem isDigit_of_decimal (isDigit : IsDigit 10 value digit) : digit.isDigit = true :=
  test_of_isDigit (by decide) isDigit

theorem unsignedNumber_decimal (written : Digits 10 values letters)
    (leading : letters.head? = some '0' → letters = ['0']) (ends : Ends rest)
    (text : List Char) :
    unsignedNumber text false (letters ++ rest) = integerValue (number 10 values) rest := by
  obtain ⟨digits, areDigits, found⟩ := exists_digits? written
    (fun _ _ => isDigit_of_decimal) rfl (ends.stops (by decide)) (ends.head?_ne (by simp))
  rw [← numberOfDigits_eq (by decide) areDigits]
  obtain ⟨value, digit, others, isDigit, rfl⟩ := exists_of_digits written
  by_cases zero : digit = '0'
  · subst zero
    obtain ⟨_, rfl⟩ := List.cons.inj (leading rfl)
    have alone : digits = ['0'] := by
      rw [List.singleton_append, digits?, if_pos (by decide), moreDigits_of_stop
        (ends.stops (by decide)) (ends.head?_ne (by simp))] at found
      cases found
      rfl
    rw [List.singleton_append, unsignedNumber_zero, afterInteger_of_ends ends, alone]
    rfl
  · rw [List.cons_append] at found ⊢
    rw [unsignedNumber_of_ne_zero _ _ _ (isDigit_of_decimal isDigit) zero, found]
    simp only [afterInteger_of_ends ends, Bool.false_eq_true, if_false]

/-- A number without sign and without the mark of another base. -/
theorem readNumber_decimal (written : Digits 10 values letters)
    (leading : letters.head? = some '0' → letters = ['0']) (ends : Ends rest) :
    readNumber (letters ++ rest) = integerValue (number 10 values) rest := by
  rw [← unsignedNumber_decimal written leading ends (letters ++ rest)]
  obtain ⟨value, digit, others, isDigit, rfl⟩ := exists_of_digits written
  have different {other : Char} (noDigit : other.isDigit = false) : digit ≠ other :=
    Text.ne_of_class Char.isDigit (isDigit_of_decimal isDigit) noDigit
  have noRadix {mark : Char} {more : List Char}
      (foreign : mark ∉ [' ', '\t', '\n', '\r', ',', ']', '\x7d', '#'])
      (same : digit :: (others ++ rest) = '0' :: mark :: more) : False := by
    obtain ⟨rfl, following⟩ := List.cons.inj same
    obtain ⟨_, rfl⟩ := List.cons.inj (leading rfl)
    apply ends.head?_ne foreign
    rw [← List.nil_append rest, following]
    rfl
  rw [List.cons_append]
  unfold readNumber
  split
  · next same => exact absurd (List.cons.inj same).1 (different rfl)
  · next same => exact absurd (List.cons.inj same).1 (different rfl)
  · next same => exact (noRadix (by simp) same).elim
  · next same => exact (noRadix (by simp) same).elim
  · next same => exact (noRadix (by simp) same).elim
  · rfl

theorem radixInteger_of_digits {test : Char → Bool} (small : base ≤ 16)
    (written : Digits base values letters)
    (all : ∀ value < base, test (Nat.digitChar value) = true ∧
      test (Nat.digitChar value).toUpper = true)
    (none : ['_', ' ', '\t', '\n', '\r', ',', ']', '\x7d', '#'].all (fun character =>
      !test character) = true) (ends : Ends rest) :
    radixInteger base test (letters ++ rest) = integerValue (number base values) rest := by
  rw [List.all_cons, Bool.and_eq_true, Bool.not_eq_true'] at none
  obtain ⟨outside, stops⟩ := none
  obtain ⟨digits, areDigits, found⟩ := exists_digits? written
    (fun _ _ => test_of_isDigit all) outside (ends.stops stops) (ends.head?_ne (by simp))
  rw [radixInteger, found, ← numberOfDigits_eq small areDigits]

theorem readNumber_written (written : NaturalWritten value letters) (ends : Ends rest) :
    readNumber (letters ++ rest) = integerValue value rest := by
  cases written with
  | decimal isSign digits leading isValue =>
      subst isValue
      rcases isSign with rfl | rfl
      · exact readNumber_decimal digits leading ends
      · exact unsignedNumber_decimal digits leading ends _
  | negativeZero isZero =>
      subst isZero
      exact afterInteger_of_ends ends _ true ['0']
  | radix isMark digits isValue =>
      subst isValue
      simp only [List.mem_cons, Prod.mk.injEq, List.not_mem_nil, or_false] at isMark
      rcases isMark with ⟨rfl, rfl⟩ | ⟨rfl, rfl⟩ | ⟨rfl, rfl⟩ <;>
        exact radixInteger_of_digits (by decide) digits (by decide) (by decide) ends

/-- Behind the first digits there is an underscore, or the end of the number. -/
theorem head?_dropWhile_digits (written : Digits 10 values letters) (ends : Ends rest)
    (foreign : character ∉ [' ', '\t', '\n', '\r', ',', ']', '\x7d', '#'])
    (noUnderscore : character ≠ '_') :
    ((letters ++ rest).dropWhile Char.isDigit).head? ≠ some character := by
  induction written with
  | last isDigit =>
      have stays : rest.dropWhile Char.isDigit = rest := by
        cases rest with
        | nil => rfl
        | cons first others =>
            have stops : first.isDigit = false := ends.stops (by decide) first rfl
            rw [List.dropWhile_cons_of_neg (by simp [stops])]
      rw [List.singleton_append, List.dropWhile_cons_of_pos (isDigit_of_decimal isDigit), stays]
      exact ends.head?_ne foreign
  | next isDigit _ inductionHypothesis =>
      rwa [List.cons_append, List.dropWhile_cons_of_pos (isDigit_of_decimal isDigit)]
  | underscore isDigit _ _ =>
      rw [List.cons_append, List.cons_append,
        List.dropWhile_cons_of_pos (isDigit_of_decimal isDigit),
        List.dropWhile_cons_of_neg (by decide)]
      exact fun same => noUnderscore (Option.some.inj same).symm

theorem dateTime?_written (written : NaturalWritten value letters) (ends : Ends rest) :
    dateTime? (letters ++ rest) = none := by
  cases written with
  | decimal isSign digits leading isValue =>
      rcases isSign with rfl | rfl
      · exact dateTime?_eq_none (head?_dropWhile_digits digits ends (by simp) (by decide))
          (head?_dropWhile_digits digits ends (by simp) (by decide))
      · exact dateTime?_of_not_isDigit rfl _
  | negativeZero => exact dateTime?_of_not_isDigit rfl _
  | radix isMark digits isValue =>
      simp only [List.mem_cons, Prod.mk.injEq, List.not_mem_nil, or_false] at isMark
      rcases isMark with ⟨rfl, rfl⟩ | ⟨rfl, rfl⟩ | ⟨rfl, rfl⟩ <;>
        exact dateTime?_eq_none (by simp [List.dropWhile]) (by simp [List.dropWhile])

theorem readDigits_written (written : NaturalWritten value letters) (inRange : value < 2 ^ 63)
    (ends : Ends rest) : readDigits (letters ++ rest) = .ok (.integer value, rest) := by
  rw [readDigits, dateTime?_written written ends, readNumber_written written ends,
    integerValue_of_lt inRange]

end Tokenizer.Toml
