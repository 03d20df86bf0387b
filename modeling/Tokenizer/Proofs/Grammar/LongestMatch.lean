import Tokenizer.Proofs.Grammar.Lead

/-!
Longest matches, and why one character of lookahead finds them.

A word that can be made longer can be made longer by one character: no word
has a gap between a shorter word and itself. So a word is the longest match
where it stands as soon as the next character does not extend it.
-/

namespace Tokenizer

namespace Grammar

/-! ### The units of a text

A backslash and the character after it belong together; any other character
stands alone, and so does a backslash at the very end. -/

def units : List Char → List (List Char)
  | [] => []
  | '\\' :: character :: rest => ['\\', character] :: units rest
  | character :: rest => [character] :: units rest

theorem units_cons {character : Char} (plain : character ≠ '\\') (rest : List Char) :
    units (character :: rest) = [character] :: units rest := by
  cases rest with
  | nil => simp [units]
  | cons next others => simp [units, plain]

theorem units_ne_nil (character : Char) (rest : List Char) : units (character :: rest) ≠ [] := by
  cases rest with
  | nil => simp [units]
  | cons next others => by_cases escape : character = '\\' <;> simp [units, escape]

theorem units_append {quote : Char} {body : List (List Char)}
    (each : ∀ unit ∈ body, BodyUnit quote unit) (rest : List Char) :
    units (body.flatten ++ rest) = body ++ units rest := by
  induction body with
  | nil => rfl
  | cons unit body inductionHypothesis =>
      rw [List.forall_mem_cons] at each
      have tailUnits := inductionHypothesis each.2
      rcases each.1 with ⟨character, plain, rfl⟩ | ⟨character, rfl⟩
      · rw [List.flatten_cons, List.append_assoc, List.singleton_append, units_cons plain.1,
          tailUnits, List.cons_append]
      · rw [List.flatten_cons, List.append_assoc, List.cons_append, List.singleton_append,
          units, tailUnits, List.cons_append]

theorem quote_not_mem_body {quote : Char} {body : List (List Char)}
    (each : ∀ unit ∈ body, BodyUnit quote unit) : [quote] ∉ body := by
  intro membership
  rcases each _ membership with ⟨character, plain, equality⟩ | ⟨character, equality⟩
  · cases equality
    exact plain.2 rfl
  · cases equality

theorem Quote.ne_backslash {quote : Char} (isQuote : Quote quote) : quote ≠ '\\' := by
  rcases isQuote with rfl | rfl <;> decide

theorem units_literal {quote : Char} (isQuote : Quote quote) {body : List (List Char)}
    (each : ∀ unit ∈ body, BodyUnit quote unit) (rest : List Char) :
    units (body.flatten ++ quote :: rest) = body ++ [quote] :: units rest := by
  rw [units_append each, units_cons isQuote.ne_backslash]

/-- A literal ends with its first quote, so no literal continues another. -/
theorem literal_append_not_mem {quote : Char} (isQuote : Quote quote) {word : List Char}
    (membership : word ∈ literal quote) (next : Char) (more : List Char) :
    word ++ next :: more ∉ literal quote := by
  intro longer
  rcases mem_literal.mp membership with ⟨body, each, rfl⟩
  rcases mem_literal.mp longer with ⟨otherBody, otherEach, equality⟩
  have tails : otherBody.flatten ++ quote :: [] = body.flatten ++ quote :: (next :: more) := by
    simpa using equality.symm
  have sameUnits := congrArg units tails
  rw [units_literal isQuote otherEach, units_literal isQuote each] at sameUnits
  have parts := (List.append_cons_inj_of_notMem (quote_not_mem_body otherEach)
    (List.not_mem_nil)).mp sameUnits
  exact absurd parts.2.2.symm (units_ne_nil next more)

/-! ### Words that can be made longer -/

/-- One more character still makes a word. -/
def Extends (word : List Char) (next : Char) : Prop :=
  ∃ kind : Kind, word ++ [next] ∈ kind.grammar

/-- `lexeme` is the longest word, of any kind, with which a text begins. -/
structure LongestMatch (text : List Char) (kind : Kind) (lexeme : List Char) : Prop where
  membership : lexeme ∈ kind.grammar
  nonempty : lexeme ≠ []
  begins : lexeme <+: text
  longest : ∀ {other : Kind} {word : List Char}, word ∈ other.grammar → word <+: text →
    word.length ≤ lexeme.length

theorem identifier_of_append {word more : List Char} (nonempty : word ≠ [])
    (membership : word ++ more ∈ Kind.identifier.grammar) : word ∈ Kind.identifier.grammar := by
  rcases List.exists_cons_of_ne_nil nonempty with ⟨lead, tail, rfl⟩
  rcases mem_identifier.mp membership with ⟨_, _, letter, each, equality⟩
  rw [List.cons_append, List.cons.injEq] at equality
  obtain ⟨rfl, rfl⟩ := equality
  exact mem_identifier.mpr ⟨lead, tail, letter, (List.forall_mem_append.mp each).1, rfl⟩

theorem integer_of_append {word more : List Char} (nonempty : word ≠ [])
    (membership : word ++ more ∈ Kind.integer.grammar) : word ∈ Kind.integer.grammar :=
  mem_integer.mpr ⟨nonempty, (List.forall_mem_append.mp (mem_integer.mp membership).2).1⟩

theorem comment_of_append {word more : List Char} (nonempty : word ≠ [])
    (membership : word ++ more ∈ Kind.comment.grammar) : word ∈ Kind.comment.grammar := by
  rcases List.exists_cons_of_ne_nil nonempty with ⟨lead, tail, rfl⟩
  rcases mem_comment.mp membership with ⟨_, each, equality⟩
  rw [List.cons_append, List.cons.injEq] at equality
  obtain ⟨rfl, rfl⟩ := equality
  exact mem_comment.mpr ⟨tail, (List.forall_mem_append.mp each).1, rfl⟩

/-- A number cut short is a number. Before the point it becomes an integer. -/
theorem number_of_append {word more : List Char} (nonempty : word ≠ [])
    (membership : word ++ more ∈ Kind.real.grammar) :
    word ∈ Kind.integer.grammar ∨ word ∈ Kind.real.grammar := by
  rcases mem_real.mp membership with ⟨whole, isWhole, fraction, digits, equality⟩
  rcases List.append_eq_append_iff.mp equality with
    ⟨middle, rfl, _⟩ | ⟨middle, rfl, fractionEquality⟩
  · exact .inl (integer_of_append nonempty isWhole)
  · cases middle with
    | nil => exact .inl (by simpa using isWhole)
    | cons first others =>
        obtain ⟨rfl, rfl⟩ : '.' = first ∧ fraction = others ++ more := by
          simpa using fractionEquality
        exact .inr (mem_real.mpr
          ⟨whole, isWhole, others, (List.forall_mem_append.mp digits).1, rfl⟩)

theorem string_append_not_mem {word : List Char} (membership : word ∈ Kind.string.grammar)
    (next : Char) (more : List Char) : word ++ next :: more ∉ Kind.string.grammar := by
  intro longer
  rcases mem_string.mp membership with ⟨quote, isQuote, inLiteral⟩
  rcases mem_string.mp longer with ⟨otherQuote, _, inOther⟩
  have sameQuote : otherQuote = quote := by
    rcases mem_literal.mp inLiteral with ⟨_, _, rfl⟩
    rcases mem_literal.mp inOther with ⟨_, _, equality⟩
    exact (List.cons.inj equality).1.symm
  subst sameQuote
  exact literal_append_not_mem isQuote inLiteral next more inOther

theorem length_of_mem_operator {word : List Char} (membership : word ∈ Kind.operator.grammar) :
    word.length ≤ 2 := by
  rcases mem_operator.mp membership with ⟨_, _, rfl⟩ | inPairs
  · simp
  · have lengths : ∀ pair ∈ operatorPairs, pair.length ≤ 2 := by decide
    exact lengths word inPairs

/-- Between a word and a longer one with the same beginning, one more character
makes a word too. -/
theorem extends_of_longer {kind other : Kind} {word more : List Char} {next : Char}
    (membership : word ∈ kind.grammar) (longer : word ++ next :: more ∈ other.grammar) :
    Extends word next := by
  have nonempty : word ++ [next] ≠ [] := by simp
  have regrouped : word ++ next :: more = (word ++ [next]) ++ more := by simp
  have positive : 0 < word.length := List.length_pos_of_ne_nil (ne_nil_of_mem_grammar membership)
  cases other with
  | identifier => exact ⟨.identifier, identifier_of_append nonempty (regrouped ▸ longer)⟩
  | integer => exact ⟨.integer, integer_of_append nonempty (regrouped ▸ longer)⟩
  | real =>
      rcases number_of_append nonempty (regrouped ▸ longer) with isInteger | isReal
      · exact ⟨.integer, isInteger⟩
      · exact ⟨.real, isReal⟩
  | string =>
      rcases List.exists_cons_of_ne_nil (ne_nil_of_mem_grammar membership) with ⟨lead, tail, rfl⟩
      rcases kind_eq_or_number membership longer with rfl | ⟨_, impossible⟩ | ⟨_, impossible⟩
      · exact absurd longer (string_append_not_mem membership next more)
      · cases impossible
      · cases impossible
  | operator =>
      have bound := length_of_mem_operator longer
      rw [List.length_append, List.length_cons] at bound
      have nothingMore : more = [] := List.length_eq_zero_iff.mp (by omega)
      exact ⟨.operator, nothingMore ▸ longer⟩
  | separator =>
      rcases longer with ⟨_, _, equality⟩
      have lengths := congrArg List.length equality
      rw [List.length_append, List.length_cons, List.length_singleton] at lengths
      omega
  | comment => exact ⟨.comment, comment_of_append nonempty (regrouped ▸ longer)⟩
  | dedent => exact longer.elim
  | finish => exact longer.elim

/-- One character of lookahead decides whether a word is the longest match. -/
theorem longestMatch_iff {kind : Kind} {lexeme rest : List Char} :
    LongestMatch (lexeme ++ rest) kind lexeme ↔
      lexeme ∈ kind.grammar ∧ ∀ next ∈ rest.head?, ¬ Extends lexeme next := by
  constructor
  · intro isLongest
    refine ⟨isLongest.membership, ?_⟩
    rintro next isNext ⟨other, extended⟩
    have fits : lexeme ++ [next] <+: lexeme ++ rest := by
      cases rest with
      | nil => cases isNext
      | cons first others =>
          cases isNext
          simp [List.prefix_append_right_inj]
    have bound := isLongest.longest extended fits
    rw [List.length_append, List.length_singleton] at bound
    omega
  · rintro ⟨membership, unextended⟩
    refine ⟨membership, ne_nil_of_mem_grammar membership, List.prefix_append _ _, ?_⟩
    intro other word otherMembership begins
    by_contra longer
    rcases List.prefix_of_prefix_length_le (List.prefix_append lexeme rest) begins (by omega) with
      ⟨extra, rfl⟩
    cases extra with
    | nil => simp at longer
    | cons next more =>
        rw [List.prefix_append_right_inj] at begins
        rcases begins with ⟨others, rfl⟩
        exact unextended next rfl (extends_of_longer membership otherMembership)

/-! ### What extends each kind -/

/-- The characters that make a longer word of a word of a kind. -/
def Continues : Kind → List Char → Char → Prop
  | .identifier, _, next => WordCharacter next
  | .integer, _, next => Digit next ∨ next = '.'
  | .real, _, next => Digit next
  | .operator, lexeme, next => lexeme ++ [next] ∈ operatorPairs
  | .comment, _, next => ¬ LineEnd next
  | _, _, _ => False

theorem append_mem_integer_iff {word : List Char} {next : Char}
    (membership : word ∈ Kind.integer.grammar) :
    word ++ [next] ∈ Kind.integer.grammar ↔ Digit next := by
  rw [mem_integer, List.forall_mem_append, List.forall_mem_singleton]
  constructor
  · intro extended
    exact extended.2.2
  · intro digit
    exact ⟨by simp, (mem_integer.mp membership).2, digit⟩

theorem append_mem_real_iff {word : List Char} {next : Char} :
    word ++ [next] ∈ Kind.real.grammar ↔
      (next = '.' ∧ word ∈ Kind.integer.grammar) ∨ (Digit next ∧ word ∈ Kind.real.grammar) := by
  constructor
  · intro membership
    rcases mem_real.mp membership with ⟨whole, isWhole, fraction, digits, equality⟩
    rcases List.eq_nil_or_concat fraction with rfl | ⟨others, last, rfl⟩
    · obtain ⟨rfl, rfl⟩ : word = whole ∧ next = '.' := by simpa using equality
      exact .inl ⟨rfl, isWhole⟩
    · obtain ⟨rfl, rfl⟩ : word = whole ++ '.' :: others ∧ next = last := by
        rw [List.concat_eq_append, ← List.cons_append, ← List.append_assoc] at equality
        have parts := List.append_inj' equality rfl
        exact ⟨parts.1, List.singleton_inj.mp parts.2⟩
      rw [List.concat_eq_append, List.forall_mem_append, List.forall_mem_singleton] at digits
      exact .inr ⟨digits.2, mem_real.mpr ⟨whole, isWhole, others, digits.1, rfl⟩⟩
  · rintro (⟨rfl, isInteger⟩ | ⟨digit, isReal⟩)
    · exact mem_real.mpr ⟨word, isInteger, [], by simp, rfl⟩
    · rcases mem_real.mp isReal with ⟨whole, isWhole, fraction, digits, rfl⟩
      refine mem_real.mpr ⟨whole, isWhole, fraction ++ [next], ?_, by simp⟩
      exact List.forall_mem_append.mpr ⟨digits, List.forall_mem_singleton.mpr digit⟩

theorem continues_of_append_mem {kind : Kind} {word : List Char} {next : Char}
    (membership : word ∈ kind.grammar) (extended : word ++ [next] ∈ kind.grammar) :
    Continues kind word next := by
  cases kind with
  | identifier =>
      rcases List.exists_cons_of_ne_nil (ne_nil_of_mem_grammar membership) with ⟨lead, tail, rfl⟩
      rcases mem_identifier.mp extended with ⟨_, _, _, each, equality⟩
      rw [List.cons_append, List.cons.injEq] at equality
      rw [← equality.2] at each
      exact each next (by simp)
  | integer => exact .inl ((append_mem_integer_iff membership).mp extended)
  | real =>
      rcases append_mem_real_iff.mp extended with ⟨_, isInteger⟩ | ⟨digit, _⟩
      · exact absurd isInteger (not_mem_integer_of_mem_real membership)
      · exact digit
  | string => exact string_append_not_mem membership next [] extended
  | operator =>
      rcases mem_operator.mp extended with ⟨_, _, equality⟩ | inPairs
      · have empty : word = [] := (List.append_eq_singleton_iff.mp equality).elim
          (fun parts => parts.1) (fun parts => by cases parts.2)
        exact absurd empty (ne_nil_of_mem_grammar membership)
      · exact inPairs
  | separator =>
      rcases membership with ⟨_, _, rfl⟩
      rcases extended with ⟨_, _, equality⟩
      cases equality
  | comment =>
      rcases List.exists_cons_of_ne_nil (ne_nil_of_mem_grammar membership) with ⟨lead, tail, rfl⟩
      rcases mem_comment.mp extended with ⟨_, each, equality⟩
      rw [List.cons_append, List.cons.injEq] at equality
      rw [← equality.2] at each
      exact each next (by simp)
  | dedent => exact membership
  | finish => exact membership

theorem extends_of_continues {kind : Kind} {word : List Char} {next : Char}
    (membership : word ∈ kind.grammar) (continues : Continues kind word next) :
    Extends word next := by
  cases kind with
  | identifier =>
      rcases mem_identifier.mp membership with ⟨lead, tail, letter, each, rfl⟩
      refine ⟨.identifier, mem_identifier.mpr ⟨lead, tail ++ [next], letter, ?_, rfl⟩⟩
      exact List.forall_mem_append.mpr ⟨each, List.forall_mem_singleton.mpr continues⟩
  | integer =>
      rcases continues with digit | rfl
      · exact ⟨.integer, (append_mem_integer_iff membership).mpr digit⟩
      · exact ⟨.real, append_mem_real_iff.mpr (.inl ⟨rfl, membership⟩)⟩
  | real => exact ⟨.real, append_mem_real_iff.mpr (.inr ⟨continues, membership⟩)⟩
  | operator => exact ⟨.operator, mem_operator.mpr (.inr continues)⟩
  | comment =>
      rcases mem_comment.mp membership with ⟨tail, each, rfl⟩
      refine ⟨.comment, mem_comment.mpr ⟨tail ++ [next], ?_, rfl⟩⟩
      exact List.forall_mem_append.mpr ⟨each, List.forall_mem_singleton.mpr continues⟩
  | string => exact continues.elim
  | separator => exact continues.elim
  | dedent => exact continues.elim
  | finish => exact continues.elim

/-- A longer word is of the same kind, or an integer has become a real. -/
theorem kind_of_longer {kind other : Kind} {word more : List Char}
    (membership : word ∈ kind.grammar) (longer : word ++ more ∈ other.grammar) :
    other = kind ∨ kind = .integer ∧ other = .real := by
  have nonempty := ne_nil_of_mem_grammar membership
  rcases List.exists_cons_of_ne_nil nonempty with ⟨lead, tail, rfl⟩
  rcases kind_eq_or_number membership longer with same | becomesReal | ⟨rfl, rfl⟩
  · exact .inl same.symm
  · exact .inr becomesReal
  · exact absurd (integer_of_append nonempty longer) (not_mem_integer_of_mem_real membership)

theorem extends_iff {kind : Kind} {word : List Char} {next : Char}
    (membership : word ∈ kind.grammar) : Extends word next ↔ Continues kind word next := by
  constructor
  · rintro ⟨other, extended⟩
    rcases kind_of_longer membership extended with rfl | ⟨rfl, rfl⟩
    · exact continues_of_append_mem membership extended
    · rcases append_mem_real_iff.mp extended with ⟨isPoint, _⟩ | ⟨_, isReal⟩
      · exact .inr isPoint
      · exact absurd membership (not_mem_integer_of_mem_real isReal)
  · exact extends_of_continues membership

/-! ### White space behind a word -/

theorem operator_of_mem_pair {pair : List Char} {character : Char}
    (inPairs : pair ∈ operatorPairs) (membership : character ∈ pair) : Operator character := by
  have each : ∀ pair ∈ operatorPairs, pair.all isOperator = true := by decide
  exact (isOperator_iff character).mp (List.all_eq_true.mp (each pair inPairs) character membership)

theorem operator_of_append_mem_pairs {word : List Char} {next : Char}
    (inPairs : word ++ [next] ∈ operatorPairs) : Operator next :=
  operator_of_mem_pair inPairs (List.mem_append_right word (List.mem_singleton_self next))

/-- White space extends no word but a comment, and that only within its line. -/
theorem extends_blank_iff {kind : Kind} {word : List Char} {character : Char}
    (blank : Blank character) (membership : word ∈ kind.grammar) :
    Extends word character ↔ kind = .comment ∧ ¬ LineEnd character := by
  have noPoint : character ≠ '.' := by
    rintro rfl
    apply blank.not_operator
    simp [Operator]
  have noPair : word ++ [character] ∉ operatorPairs := fun inPairs =>
    blank.not_operator (operator_of_append_mem_pairs inPairs)
  rw [extends_iff membership]
  cases kind with
  | identifier => simp [Continues, blank.not_wordCharacter]
  | integer => simp [Continues, blank.not_digit, noPoint]
  | real => simp [Continues, blank.not_digit]
  | operator => simp [Continues, noPair]
  | _ => simp [Continues]

/-- A literal is the only word that can go over a line. -/
theorem lineEnd_not_mem {kind : Kind} {word : List Char} {character : Char}
    (lineEnd : LineEnd character) (membership : word ∈ kind.grammar) (notString : kind ≠ .string) :
    character ∉ word := by
  have blank : Blank character := .inr (.inr lineEnd)
  intro inWord
  cases kind with
  | identifier =>
      rcases mem_identifier.mp membership with ⟨lead, tail, letter, each, rfl⟩
      rcases List.mem_cons.mp inWord with rfl | inTail
      · exact blank.not_letter letter
      · exact blank.not_wordCharacter (each character inTail)
  | integer => exact blank.not_digit ((mem_integer.mp membership).2 character inWord)
  | real =>
      rcases mem_real.mp membership with ⟨whole, isWhole, fraction, digits, rfl⟩
      rcases List.mem_append.mp inWord with inWhole | inRest
      · exact blank.not_digit ((mem_integer.mp isWhole).2 character inWhole)
      · rcases List.mem_cons.mp inRest with rfl | inFraction
        · exact blank.not_operator (by simp [Operator])
        · exact blank.not_digit (digits character inFraction)
  | string => exact notString rfl
  | operator =>
      rcases mem_operator.mp membership with ⟨_, operator, rfl⟩ | inPairs
      · rw [List.mem_singleton.mp inWord] at blank
        exact blank.not_operator operator
      · exact blank.not_operator (operator_of_mem_pair inPairs inWord)
  | separator =>
      rcases mem_separator.mp membership with ⟨_, separator, rfl⟩
      rw [List.mem_singleton.mp inWord] at blank
      exact blank.not_separator separator
  | comment =>
      rcases mem_comment.mp membership with ⟨tail, each, rfl⟩
      rcases List.mem_cons.mp inWord with rfl | inTail
      · rcases lineEnd with impossible | impossible <;> cases impossible
      · exact each character inTail lineEnd
  | dedent => exact membership
  | finish => exact membership

/-- A text has at most one longest match. -/
theorem LongestMatch.unique {text lexeme otherLexeme : List Char} {kind other : Kind}
    (first : LongestMatch text kind lexeme) (second : LongestMatch text other otherLexeme) :
    kind = other ∧ lexeme = otherLexeme := by
  have shorter := second.longest first.membership first.begins
  have longer := first.longest second.membership second.begins
  have sameLexeme : lexeme = otherLexeme :=
    (List.prefix_of_prefix_length_le first.begins second.begins shorter).eq_of_length
      (Nat.le_antisymm shorter longer)
  subst sameLexeme
  exact ⟨kind_unique first.membership second.membership, rfl⟩

/-- Cutting a text behind its longest match leaves that match the longest, and
only a cut right behind it can make a difference. -/
theorem longestMatch_append_iff {kind : Kind} {lexeme rest tail : List Char} :
    LongestMatch (lexeme ++ (rest ++ tail)) kind lexeme ↔
      LongestMatch (lexeme ++ rest) kind lexeme ∧
        (rest = [] → ∀ next ∈ tail.head?, ¬ Extends lexeme next) := by
  rw [longestMatch_iff, longestMatch_iff]
  cases rest with
  | nil => simp
  | cons first others => simp

/-- A text that begins with a word has a longest match, and the word begins it. -/
theorem exists_longestMatch {kind : Kind} {word : List Char} (membership : word ∈ kind.grammar)
    (tail : List Char) :
    ∃ other more rest, tail = more ++ rest ∧
      LongestMatch (word ++ more ++ rest) other (word ++ more) := by
  induction tail generalizing kind word with
  | nil =>
      refine ⟨kind, [], [], rfl, ?_⟩
      rw [List.append_nil word]
      exact longestMatch_iff.mpr ⟨membership, fun _ isNext => by cases isNext⟩
  | cons next tail inductionHypothesis =>
      by_cases extended : Extends word next
      · rcases extended with ⟨longer, inLonger⟩
        rcases inductionHypothesis inLonger with ⟨other, more, rest, rfl, isLongest⟩
        refine ⟨other, next :: more, rest, rfl, ?_⟩
        rwa [List.append_assoc word] at isLongest
      · refine ⟨kind, [], next :: tail, rfl, ?_⟩
        rw [List.append_nil word]
        apply longestMatch_iff.mpr
        refine ⟨membership, ?_⟩
        rintro character isNext
        cases isNext
        exact extended

/-! ### What a longest match begins with -/

theorem LongestMatch.ofLead? {lead : Char} {tail lexeme : List Char} {kind : Kind}
    (isLongest : LongestMatch (lead :: tail) kind lexeme) :
    State.ofLead? lead = some (kind.reader lead) := by
  rcases List.exists_cons_of_ne_nil isLongest.nonempty with ⟨first, others, rfl⟩
  have sameLead : first = lead := (List.cons_prefix_cons.mp isLongest.begins).1
  subst sameLead
  exact ofLead?_of_mem_grammar isLongest.membership

theorem LongestMatch.not_blank {lead : Char} {tail lexeme : List Char} {kind : Kind}
    (isLongest : LongestMatch (lead :: tail) kind lexeme) : ¬ Blank lead := by
  intro blank
  have unselected := State.ofLead?_of_blank blank
  rw [isLongest.ofLead?] at unselected
  cases unselected

theorem LongestMatch.not_stray {lead : Char} {tail lexeme : List Char} {kind : Kind}
    (isLongest : LongestMatch (lead :: tail) kind lexeme) : ¬ Stray lead := by
  intro stray
  have unselected := (State.ofLead?_eq_none_iff stray.notBlank).mpr stray
  rw [isLongest.ofLead?] at unselected
  cases unselected

/-- A longest match that begins with a quote is a closed literal. -/
theorem LongestMatch.closed {quote : Char} {body lexeme : List Char} {kind : Kind}
    (isLongest : LongestMatch (quote :: body) kind lexeme) (isQuote : Quote quote) :
    [quote] ∈ units body := by
  have selected := isLongest.ofLead?
  rw [State.ofLead?_of_quote isQuote] at selected
  have membership := isLongest.membership
  cases kind with
  | string =>
      rcases mem_string.mp membership with ⟨other, _, inLiteral⟩
      rcases mem_literal.mp inLiteral with ⟨inside, each, rfl⟩
      rcases isLongest.begins with ⟨rest, equality⟩
      rw [List.cons_append, List.cons.injEq, List.append_assoc, List.singleton_append] at equality
      obtain ⟨rfl, rfl⟩ := equality
      rw [units_literal isQuote each]
      simp
  | _ => simp [Kind.reader] at selected

end Grammar

end Tokenizer
