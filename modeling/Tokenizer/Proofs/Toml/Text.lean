import Tokenizer.Proofs.Toml.Number

/-!
Every form of a string is read as the text that it stands for.

What follows the string must not begin with a delimiter, which might be taken for a part of it.
-/

namespace Tokenizer.Toml

variable {form : TextForm} {seen : Nat} {character delimiter : Char}
  {code text letters following rest : List Char}

/-! ### Escapes -/

theorem escape?_append (escape : Escape character code) (following : List Char) :
    escape? (code ++ following) = some (character, following) := by
  cases escape with
  | @short letter isEscape =>
      have all : ∀ pair ∈ escapes, (pair.1 == 'u') = false ∧ (pair.1 == 'U') = false ∧
          simpleEscape? pair.1 = some pair.2 := by decide
      obtain ⟨noCode, noLongCode, means⟩ := all _ isEscape
      rw [List.singleton_append, escape?, noCode, noLongCode, means]
      rfl
  | @code mark count values digits isMark full areDigits isCode =>
      have means : hexEscape? count (digits ++ following) = some (character, following) := by
        have valid : character.toNat.isValidChar := character.valid
        have long : ¬(digits ++ following).length < count := by
          rw [List.length_append, full]
          omega
        rw [hexEscape?, if_neg long, List.take_left' full, List.drop_left' full, scalar?,
          hexNumber?_eq areDigits, isCode, Option.bind_some, if_pos valid, Char.ofNat_toNat]
        rfl
      simp only [List.mem_cons, Prod.mk.injEq, List.not_mem_nil, or_false] at isMark
      rcases isMark with ⟨rfl, rfl⟩ | ⟨rfl, rfl⟩ <;> exact means

/-- No escape is taken for a line end that is to be skipped. -/
theorem continuation?_escape (escape : Escape character code) (following : List Char) :
    continuation? (code ++ following) = none := by
  have stays {first : Char} (solid : Solid first) (others : List Char) :
      continuation? (first :: others) = none := by
    have noLineEnd : first ∉ ['\n', '\r'] := fun lineEnd => solid (by simp_all; tauto)
    rw [continuation?, skipBlanks_of_solid solid, newline?_of_not_mem noLineEnd]
    rfl
  cases escape with
  | short isEscape =>
      have all : ∀ pair ∈ escapes, Solid pair.1 := by unfold Solid; decide
      exact stays (all _ isEscape) _
  | code isMark =>
      simp only [List.mem_cons, Prod.mk.injEq, List.not_mem_nil, or_false] at isMark
      rcases isMark with ⟨rfl, rfl⟩ | ⟨rfl, rfl⟩ <;> exact stays (by unfold Solid; decide) _

theorem continuation?_append {blanks ending indentation : List Char} (isBlanks : Blanks blanks)
    (isEnd : LineEnd ending) (isGap : Gap false indentation)
    (stops : ∀ character ∈ rest.head?, character ∉ [' ', '\t', '\n', '\r']) :
    continuation? (blanks ++ (ending ++ (indentation ++ rest))) = some rest := by
  have noBlank : skipBlanks (ending ++ (indentation ++ rest)) =
      ending ++ (indentation ++ rest) := by
    rcases isEnd with rfl | rfl <;> rfl
  have noBlankLine : skipBlankLines rest = rest := by
    cases rest with
    | nil => rw [skipBlankLines]
    | cons character rest => exact skipBlankLines_of_not_mem (stops character rfl) rest
  rw [continuation?, skipBlanks_append isBlanks, noBlank, newline?_append isEnd, Option.map_some,
    skipBlankLines_gap isGap, noBlankLine]

/-! ### Strings of one line -/

theorem basicBody_of_body (body : Body .basic seen text letters) (rest : List Char) :
    basicBody (letters ++ '"' :: rest) = .ok (text, rest) := by
  induction body with
  | nil =>
      rw [List.nil_append, basicBody]
      rfl
  | plain printable noDelimiter noBackslash _ inductionHypothesis =>
      have permitted := (isTextCharacter_iff _).mpr printable
      have noQuote : _ ≠ '"' := noDelimiter
      rw [List.cons_append, basicBody]
      simp only [beq_iff_eq, noQuote, noBackslash rfl, if_false, permitted, if_true,
        inductionHypothesis]
      rfl
  | escape _ isEscape _ inductionHypothesis =>
      rw [List.cons_append, List.append_assoc, basicBody]
      simp only [beq_iff_eq, Char.reduceEq, if_false, if_true]
      split
      · next escaped =>
          rw [escape?_append isEscape] at escaped
          cases escaped
          rw [inductionHypothesis]
          rfl
      · next escaped =>
          rw [escape?_append isEscape] at escaped
          cases escaped
  | delimiter several => cases several
  | lineEnd several => cases several
  | continuation isForm => cases isForm

theorem literalBody_of_body (body : Body .literal seen text letters) (rest : List Char) :
    literalBody (letters ++ '\x27' :: rest) = .ok (text, rest) := by
  induction body with
  | nil => rfl
  | plain printable noDelimiter _ _ inductionHypothesis =>
      have permitted := (isTextCharacter_iff _).mpr printable
      have noApostrophe : _ ≠ '\x27' := noDelimiter
      rw [List.cons_append, literalBody]
      simp only [beq_iff_eq, noApostrophe, if_false, permitted, if_true, inductionHypothesis]
      rfl
  | escape possible => cases possible
  | delimiter several => cases several
  | lineEnd several => cases several
  | continuation isForm => cases isForm

/-! ### Delimiters in a row -/

/-- The front of a text in which a character is repeated. -/
def leadingRun (delimiter : Char) (text : List Char) : List Char :=
  text.takeWhile (· == delimiter)

theorem leadingRun_of_ne (different : character ≠ delimiter) :
    leadingRun delimiter (character :: text) = [] := by
  simp [leadingRun, different]

theorem leadingRun_self : leadingRun delimiter (delimiter :: text) =
    delimiter :: leadingRun delimiter text := by
  simp [leadingRun]

/-- Behind a text that does not begin with three delimiters, three of them close a string at once
if the text is made of nothing but delimiters. These then belong to the string. -/
theorem closing?_append (text : List Char) (short : (leadingRun delimiter text).length ≤ 2)
    (ends : rest.head? ≠ some delimiter) :
    closing? delimiter (text ++ delimiter :: delimiter :: delimiter :: rest) =
      if text.all (· == delimiter) then some (text, rest) else none := by
  have surplus (count : Nat) : (rest.take (count + 1)).takeWhile (· == delimiter) = [] := by
    cases rest with
    | nil => rfl
    | cons character rest =>
        have different : (character == delimiter) = false := by simpa using ends
        rw [List.take_succ_cons, List.takeWhile_cons, different]
        rfl
  match text with
  | [] => simp [closing?, surplus 1]
  | [first] => by_cases same : first = delimiter <;> simp [closing?, same, surplus 0]
  | [first, second] =>
      by_cases same : first = delimiter <;> by_cases again : second = delimiter <;>
        simp [closing?, same, again]
  | first :: second :: third :: text =>
      have different : ¬((first = delimiter ∧ second = delimiter) ∧ third = delimiter) := by
        rintro ⟨⟨rfl, rfl⟩, rfl⟩
        simp only [leadingRun_self, List.length_cons] at short
        omega
      have notAll : (first :: second :: third :: text).all (· == delimiter) = false := by
        simp only [List.all_cons, Bool.and_eq_false_imp, beq_iff_eq]
        intro one two three
        exact absurd ⟨⟨one, two⟩, three⟩ different
      rw [notAll]
      simp only [List.cons_append, closing?, Bool.and_eq_true, beq_iff_eq, different, if_false,
        Bool.false_eq_true]

theorem closing?_of_ne (different : character ≠ delimiter) (rest : List Char) :
    closing? delimiter (character :: rest) = none := by
  unfold closing?
  split
  · next first second third rest same =>
      cases same
      simp [different]
  · rfl

theorem TextForm.delimiter_ne (form : TextForm) :
    form.delimiter ≠ '\\' ∧ form.delimiter ∉ ['\n', '\r'] := by
  cases form <;> decide

namespace Body

/-- What stands for a text begins with a delimiter that belongs to the text, or with another
character, or there is nothing. -/
theorem head_cases (body : Body form seen text letters) :
    letters = [] ∧ text = [] ∨
      (∃ others more, form.isMultiline = true ∧ seen < 2 ∧ text = form.delimiter :: others ∧
        letters = form.delimiter :: more ∧ Body form (seen + 1) others more) ∨
      ∃ first more, letters = first :: more ∧ first ≠ form.delimiter := by
  cases body with
  | nil => exact .inl ⟨rfl, rfl⟩
  | plain _ noDelimiter => exact .inr (.inr ⟨_, _, rfl, noDelimiter⟩)
  | escape => exact .inr (.inr ⟨_, _, rfl, form.delimiter_ne.1.symm⟩)
  | delimiter several few body => exact .inr (.inl ⟨_, _, several, few, rfl, rfl, body⟩)
  | lineEnd _ isEnd =>
      obtain ⟨first, others, rfl, isFirst⟩ := exists_of_lineEnd isEnd
      exact .inr (.inr ⟨first, _, rfl, fun same => form.delimiter_ne.2 (same ▸ isFirst)⟩)
  | continuation => exact .inr (.inr ⟨_, _, rfl, form.delimiter_ne.1.symm⟩)

theorem length_leadingRun_le (body : Body form seen text letters) (few : seen ≤ 2) :
    seen + (leadingRun form.delimiter letters).length ≤ 2 := by
  induction letters generalizing seen text with
  | nil => exact few
  | cons first letters inductionHypothesis =>
      rcases body.head_cases with ⟨nothing, _⟩ | ⟨others, more, _, fewer, _, parts, body⟩ |
        ⟨other, more, parts, noDelimiter⟩
      · cases nothing
      · obtain ⟨rfl, rfl⟩ := List.cons.inj parts
        have further := inductionHypothesis body fewer
        rw [leadingRun_self, List.length_cons]
        omega
      · obtain ⟨rfl, rfl⟩ := List.cons.inj parts
        rw [leadingRun_of_ne noDelimiter]
        exact few

/-- Delimiters by themselves stand for a text of as many delimiters. -/
theorem eq_of_all (body : Body form seen text letters)
    (all : letters.all (· == form.delimiter) = true) : text = letters := by
  induction letters generalizing seen text with
  | nil =>
      rcases body.head_cases with ⟨_, rfl⟩ | ⟨_, _, _, _, _, parts, _⟩ | ⟨_, _, parts, _⟩
      · rfl
      · cases parts
      · cases parts
  | cons first letters inductionHypothesis =>
      rw [List.all_cons, Bool.and_eq_true] at all
      rcases body.head_cases with ⟨nothing, _⟩ | ⟨others, more, _, _, rfl, parts, body⟩ |
        ⟨other, more, parts, noDelimiter⟩
      · cases nothing
      · obtain ⟨rfl, rfl⟩ := List.cons.inj parts
        rw [inductionHypothesis body all.2]
      · obtain ⟨rfl, rfl⟩ := List.cons.inj parts
        exact absurd (beq_iff_eq.mp all.1) noDelimiter

/-- As long as something else than delimiters follows, the first three characters do not close the
string; once nothing else follows, all of them do. -/
theorem closing?_eq (body : Body form seen text letters) (few : seen ≤ 2)
    (ends : rest.head? ≠ some form.delimiter) :
    closing? form.delimiter (letters ++
        form.delimiter :: form.delimiter :: form.delimiter :: rest) =
      if letters.all (· == form.delimiter) then some (text, rest) else none := by
  have short := body.length_leadingRun_le few
  rw [closing?_append letters (by omega) ends]
  split
  · next all => rw [body.eq_of_all all]
  · rfl

end Body

/-! ### Strings of several lines -/

/-- How the reader takes what stands for itself, from the front of a string that is not closed
there. -/
theorem multilineBasicBody_cons (open_ : closing? '"' (character :: rest) = none)
    (printable : Printable character) (noBackslash : character ≠ '\\') :
    multilineBasicBody (character :: rest) = (multilineBasicBody rest).map (character :: ·) := by
  have permitted := (isTextCharacter_iff character).mpr printable
  rw [multilineBasicBody.eq_def, open_]
  simp only [beq_iff_eq, noBackslash, if_false, permitted, if_true]
  split
  · next found =>
      rw [newline?_of_printable printable] at found
      cases found
  · rfl

theorem multilineBasicBody_lineEnd {ending : List Char} (isEnd : LineEnd ending)
    (rest : List Char) :
    multilineBasicBody (ending ++ rest) = (multilineBasicBody rest).map ('\n' :: ·) := by
  rcases isEnd with rfl | rfl
  · rw [multilineBasicBody.eq_def, List.cons_append, closing?_of_ne (by decide)]
    rfl
  · rw [multilineBasicBody.eq_def, List.cons_append, closing?_of_ne (by decide)]
    rfl

theorem multilineBasicBody_escape (isEscape : Escape character code) (rest : List Char) :
    multilineBasicBody ('\\' :: (code ++ rest)) =
      (multilineBasicBody rest).map (character :: ·) := by
  rw [multilineBasicBody.eq_def, closing?_of_ne (by decide)]
  simp only [beq_self_eq_true, if_true]
  split
  · next continued =>
      rw [continuation?_escape isEscape] at continued
      cases continued
  · split
    · next escaped =>
        rw [escape?_append isEscape] at escaped
        cases escaped
        rfl
    · next escaped =>
        rw [escape?_append isEscape] at escaped
        cases escaped

theorem multilineBasicBody_continuation (continued : continuation? text = some rest) :
    multilineBasicBody ('\\' :: text) = multilineBasicBody rest := by
  rw [multilineBasicBody.eq_def, closing?_of_ne (by decide)]
  simp only [beq_self_eq_true, if_true]
  split
  · next found =>
      rw [continued] at found
      cases found
      rfl
  · next found =>
      rw [continued] at found
      cases found

theorem multilineBasicBody_of_body (body : Body .multilineBasic seen text letters)
    (few : seen ≤ 2) (ends : rest.head? ≠ some '"') :
    multilineBasicBody (letters ++ '"' :: '"' :: '"' :: rest) = .ok (text, rest) := by
  have closes := body.closing?_eq few ends
  induction body with
  | nil =>
      rw [multilineBasicBody.eq_def]
      have closed : closing? '"' ([] ++ '"' :: '"' :: '"' :: rest) = some ([], rest) := closes
      rw [closed]
  | @plain seen character text letters printable noDelimiter noBackslash body
      inductionHypothesis =>
      have opens := closing?_of_ne noDelimiter (letters ++ '"' :: '"' :: '"' :: rest)
      rw [List.cons_append, multilineBasicBody_cons opens printable (noBackslash rfl),
        inductionHypothesis (Nat.zero_le 2) (body.closing?_eq (Nat.zero_le 2) ends)]
      rfl
  | escape _ isEscape body inductionHypothesis =>
      rw [List.cons_append, List.append_assoc, multilineBasicBody_escape isEscape,
        inductionHypothesis (Nat.zero_le 2) (body.closing?_eq (Nat.zero_le 2) ends)]
      rfl
  | @delimiter seen text letters _ fewer body inductionHypothesis =>
      have follows := inductionHypothesis fewer (body.closing?_eq fewer ends)
      split at closes
      · -- The reader takes the rest of the string together with the three that close it.
        next all =>
        have closed : closing? '"' ('"' :: letters ++ '"' :: '"' :: '"' :: rest) = _ := closes
        rw [multilineBasicBody.eq_def]
        exact closed ▸ rfl
      · have opens : closing? '"' ('"' :: (letters ++ '"' :: '"' :: '"' :: rest)) = none := closes
        have printable : Printable '"' := by unfold Printable; decide
        refine (multilineBasicBody_cons opens printable (by decide)).trans ?_
        rw [follows]
        rfl
  | lineEnd _ isEnd body inductionHypothesis =>
      rw [List.append_assoc, multilineBasicBody_lineEnd isEnd,
        inductionHypothesis (Nat.zero_le 2) (body.closing?_eq (Nat.zero_le 2) ends)]
      rfl
  | @continuation seen blanks ending indentation text letters _ isBlanks isEnd isGap stops body
      inductionHypothesis =>
      have stopsBefore : ∀ character ∈ (letters ++ '"' :: '"' :: '"' :: rest).head?,
          character ∉ [' ', '\t', '\n', '\r'] := by
        cases letters with
        | nil => simp
        | cons first others => exact stops
      simp only [List.cons_append, List.append_assoc]
      rw [multilineBasicBody_continuation
          (continuation?_append isBlanks isEnd isGap stopsBefore),
        inductionHypothesis (Nat.zero_le 2) (body.closing?_eq (Nat.zero_le 2) ends)]

theorem multilineLiteralBody_cons (opens : closing? '\x27' (character :: rest) = none)
    (printable : Printable character) :
    multilineLiteralBody (character :: rest) =
      (multilineLiteralBody rest).map (character :: ·) := by
  have permitted := (isTextCharacter_iff character).mpr printable
  rw [multilineLiteralBody.eq_def, opens]
  simp only [permitted, if_true]
  split
  · next found =>
      rw [newline?_of_printable printable] at found
      cases found
  · rfl

theorem multilineLiteralBody_lineEnd {ending : List Char} (isEnd : LineEnd ending)
    (rest : List Char) :
    multilineLiteralBody (ending ++ rest) = (multilineLiteralBody rest).map ('\n' :: ·) := by
  rcases isEnd with rfl | rfl
  · rw [multilineLiteralBody.eq_def, List.cons_append, closing?_of_ne (by decide)]
    rfl
  · rw [multilineLiteralBody.eq_def, List.cons_append, closing?_of_ne (by decide)]
    rfl

theorem multilineLiteralBody_of_body (body : Body .multilineLiteral seen text letters)
    (few : seen ≤ 2) (ends : rest.head? ≠ some '\x27') :
    multilineLiteralBody (letters ++ '\x27' :: '\x27' :: '\x27' :: rest) = .ok (text, rest) := by
  have closes := body.closing?_eq few ends
  induction body with
  | nil =>
      have closed : closing? '\x27' ([] ++ '\x27' :: '\x27' :: '\x27' :: rest) = some ([], rest) :=
        closes
      rw [multilineLiteralBody.eq_def, closed]
  | @plain seen character text letters printable noDelimiter _ body inductionHypothesis =>
      have opens := closing?_of_ne noDelimiter (letters ++ '\x27' :: '\x27' :: '\x27' :: rest)
      rw [List.cons_append, multilineLiteralBody_cons opens printable,
        inductionHypothesis (Nat.zero_le 2) (body.closing?_eq (Nat.zero_le 2) ends)]
      rfl
  | escape possible => cases possible
  | @delimiter seen text letters _ fewer body inductionHypothesis =>
      have follows := inductionHypothesis fewer (body.closing?_eq fewer ends)
      split at closes
      · have closed : closing? '\x27' ('\x27' :: letters ++ '\x27' :: '\x27' :: '\x27' :: rest) =
            some ('\x27' :: text, rest) := closes
        rw [multilineLiteralBody.eq_def]
        exact closed ▸ rfl
      · have opens : closing? '\x27' ('\x27' :: (letters ++ '\x27' :: '\x27' :: '\x27' :: rest)) =
            none := closes
        have printable : Printable '\x27' := by unfold Printable; decide
        refine (multilineLiteralBody_cons opens printable).trans ?_
        rw [follows]
        rfl
  | lineEnd _ isEnd body inductionHypothesis =>
      rw [List.append_assoc, multilineLiteralBody_lineEnd isEnd,
        inductionHypothesis (Nat.zero_le 2) (body.closing?_eq (Nat.zero_le 2) ends)]
      rfl
  | continuation isForm => cases isForm

/-! ### Strings of any form -/

theorem Ends.head?_ne_delimiter (ends : Ends rest) (form : TextForm) :
    rest.head? ≠ some form.delimiter :=
  ends.head?_ne (by cases form <;> decide)

/-- A string of one line is not taken for one of several lines. -/
theorem Body.ne_two_delimiters (body : Body form seen text letters)
    (single : form.isMultiline = false) (noDelimiter : rest.head? ≠ some form.delimiter)
    (more : List Char) :
    letters ++ form.delimiter :: rest ≠ form.delimiter :: form.delimiter :: more := by
  rcases body.head_cases with ⟨rfl, _⟩ | ⟨_, _, several, _⟩ | ⟨first, others, rfl, different⟩
  · intro same
    rw [(List.cons.inj same).2] at noDelimiter
    exact noDelimiter rfl
  · rw [single] at several
    cases several
  · intro same
    exact different (List.cons.inj same).1

theorem readText_quote (single : ∀ more, following ≠ '"' :: '"' :: more) :
    readText ('"' :: following) = (basicBody following).map String.ofList := by
  unfold readText
  split
  · next more same => exact absurd (List.cons.inj same).2 (single more)
  · next same => cases (List.cons.inj same).1
  · next same =>
      cases same
      rfl
  · next same => cases (List.cons.inj same).1
  · next other _ => exact absurd rfl (other following)

theorem readText_apostrophe (single : ∀ more, following ≠ '\x27' :: '\x27' :: more) :
    readText ('\x27' :: following) = (literalBody following).map String.ofList := by
  unfold readText
  split
  · next same => cases (List.cons.inj same).1
  · next more same => exact absurd (List.cons.inj same).2 (single more)
  · next same => cases (List.cons.inj same).1
  · next same =>
      cases same
      rfl
  · next other => exact absurd rfl (other following)

theorem prefix_of_not_mem {front body : List Char}
    (isPrefix : front <+: body ++ character :: rest) (absent : character ∉ front) :
    front <+: body := by
  rcases Nat.lt_or_ge body.length front.length with longer | shorter
  · have further : body ++ [character] <+: body ++ character :: rest := ⟨rest, by simp⟩
    have within : body ++ [character] <+: front :=
      List.prefix_of_prefix_length_le further isPrefix (by rwa [List.length_append])
    exact absurd (within.subset (by simp)) absent
  · exact List.prefix_of_prefix_length_le isPrefix (List.prefix_append _ _) shorter

/-- The line end that is skipped at the beginning of a string is no part of it. -/
theorem skipNewline_append {opening body : List Char}
    (opens : LineEnd opening ∨ opening = [] ∧ ∀ ending, LineEnd ending → ¬ending <+: body)
    (delimited : character ∉ ['\n', '\r']) (rest : List Char) :
    skipNewline (opening ++ (body ++ character :: rest)) = body ++ character :: rest := by
  rcases opens with isEnd | ⟨rfl, noLineEnd⟩
  · rw [skipNewline, newline?_append isEnd]
    rfl
  · have stays : newline? (body ++ character :: rest) = none := by
      cases found : newline? (body ++ character :: rest) with
      | none => rfl
      | some following =>
          obtain ⟨ending, isEnd, parts⟩ := exists_of_newline? found
          have absent : character ∉ ending := by
            rcases isEnd with rfl | rfl <;> simp_all
          exact absurd (prefix_of_not_mem ⟨following, parts.symm⟩ absent) (noLineEnd ending isEnd)
    rw [List.nil_append, skipNewline, stays]
    rfl

theorem readText_written {value : String} (written : TextWritten value letters)
    (ends : Ends rest) : readText (letters ++ rest) = .ok (value, rest) := by
  have packed : (Reading.map String.ofList (.ok (value.toList, rest))) = .ok (value, rest) := by
    rw [Reading.map, String.ofList_toList]
  cases written with
  | @line form body single isBody =>
      have plain := isBody.ne_two_delimiters single (ends.head?_ne_delimiter form)
      rw [List.cons_append, List.append_assoc, ← packed]
      cases form with
      | basic =>
          have read : basicBody (body ++ '"' :: rest) = _ := basicBody_of_body isBody rest
          exact (readText_quote plain).trans (congrArg _ read)
      | literal =>
          have read : literalBody (body ++ '\x27' :: rest) = _ := literalBody_of_body isBody rest
          exact (readText_apostrophe plain).trans (congrArg _ read)
      | multilineBasic => cases single
      | multilineLiteral => cases single
  | @lines form opening body several opens isBody =>
      have noDelimiter := ends.head?_ne_delimiter form
      have delimited : form.delimiter ∉ ['\n', '\r'] :=
        form.delimiter_ne.2
      have parts : List.replicate 3 form.delimiter ++
          (opening ++ (body ++ List.replicate 3 form.delimiter)) ++ rest =
          form.delimiter :: form.delimiter :: form.delimiter ::
            (opening ++ (body ++ form.delimiter :: form.delimiter :: form.delimiter :: rest)) := by
        simp [List.replicate]
      have skips := skipNewline_append opens delimited
        (form.delimiter :: form.delimiter :: rest)
      rw [parts, ← packed]
      cases form with
      | basic => cases several
      | literal => cases several
      | multilineBasic =>
          have read : multilineBasicBody (body ++ '"' :: '"' :: '"' :: rest) = _ :=
            multilineBasicBody_of_body isBody (Nat.zero_le 2) noDelimiter
          exact congrArg (Reading.map String.ofList)
            ((congrArg multilineBasicBody skips).trans read)
      | multilineLiteral =>
          have read : multilineLiteralBody (body ++ '\x27' :: '\x27' :: '\x27' :: rest) = _ :=
            multilineLiteralBody_of_body isBody (Nat.zero_le 2) noDelimiter
          exact congrArg (Reading.map String.ofList)
            ((congrArg multilineLiteralBody skips).trans read)

/-- A string begins with one of the two delimiters. -/
theorem exists_of_textWritten {value : String} (written : TextWritten value letters) :
    ∃ form : TextForm, ∃ others, letters = form.delimiter :: others := by
  cases written with
  | line => exact ⟨_, _, rfl⟩
  | lines => exact ⟨_, _, rfl⟩

end Tokenizer.Toml
