import Mathlib.Tactic.SplitIfs
import Tokenizer.Proofs.Toml.Document

/-!
What is written is a legal document with the entries that are to be written.

Every name, string and number is written in one of the forms that the language has for it. So the
document is read as any other.
-/

namespace Tokenizer.Toml

variable {character : Char} {text : List Char} {name : String} {value : Nat}

/-! ### Strings -/

theorem printable_of_not_isControl (plain : isControl character = false)
    (noLineEnd : character ≠ '\n') : Printable character := by
  by_cases tab : character = '\t'
  · exact .inl tab
  · simp only [isControl, Bool.or_eq_false_iff, Bool.and_eq_false_iff, decide_eq_false_iff_not,
      bne_eq_false_iff_eq, tab, noLineEnd, or_false, beq_eq_false_iff_ne] at plain
    exact .inr ⟨Nat.le_of_not_lt plain.1, plain.2⟩

theorem escape_fourDigits (small : character.toNat < 65536) :
    Escape character ('u' :: fourDigits character.toNat) := by
  have upper (number : Nat) :
      IsDigit 16 (number % 16) (Nat.digitChar (number % 16)).toUpper :=
    ⟨Nat.mod_lt _ (by decide), .inr rfl⟩
  have isMark : ('u', 4) ∈ [('u', 4), ('U', 8)] := List.mem_cons_self
  refine .code isMark rfl
    (.cons (upper _) (.cons (upper _) (.cons (upper _) (.cons (upper _) .nil)))) ?_
  simp only [number, List.reverse_cons, List.reverse_nil, List.nil_append, List.cons_append,
    Nat.ofDigits_cons, Nat.ofDigits_nil]
  omega

/-- The form with escapes, of one line or of several. -/
def TextForm.quoted : Bool → TextForm
  | false => .basic
  | true => .multilineBasic

/-- A character that is written within quotation marks is printable, ends a line or is an
escape. -/
theorem body_writeCharacter {seen : Nat} {letters : List Char} (multiline : Bool)
    (noDelimiter : character ≠ '"') (body : Body (.quoted multiline) 0 text letters) :
    Body (.quoted multiline) seen (character :: text)
      (writeCharacter multiline character ++ letters) := by
  have hasEscapes : (TextForm.quoted multiline).hasEscapes = true := by cases multiline <;> rfl
  have delimited : (TextForm.quoted multiline).delimiter = '"' := by cases multiline <;> rfl
  have short {letter : Char} (isEscape : (letter, character) ∈ escapes) :
      Body (.quoted multiline) seen (character :: text) ('\\' :: ([letter] ++ letters)) :=
    .escape hasEscapes (.short isEscape) body
  unfold writeCharacter
  simp only [beq_iff_eq]
  split_ifs with backspace tab lineEnd several formFeed carriageReturn backslash control
  · exact short (by rw [backspace]; decide)
  · exact short (by rw [tab]; decide)
  · rw [lineEnd]
    exact .lineEnd (by rw [several]; rfl) (.inl rfl) body
  · exact short (by rw [lineEnd]; decide)
  · exact short (by rw [formFeed]; decide)
  · exact short (by rw [carriageReturn]; decide)
  · exact short (by rw [backslash]; decide)
  · have small : character.toNat < 65536 := by
      simp only [isControl, Bool.or_eq_true, Bool.and_eq_true, decide_eq_true_eq, beq_iff_eq]
        at control
      omega
    exact .escape hasEscapes (escape_fourDigits small) body
  · have plain : isControl character = false := Bool.eq_false_iff.mpr control
    exact .plain (printable_of_not_isControl plain lineEnd) (by rwa [delimited])
      (fun _ => backslash) body

/-- Fewer than three quotation marks in a row may stand for themselves in a string of several
lines. -/
theorem body_writeEscaped (multiline : Bool) (text : List Char) {seen : Nat} :
    Body (.quoted multiline) seen text
      (writeEscaped multiline (if multiline then 2 else 0) seen text) := by
  have hasEscapes : (TextForm.quoted multiline).hasEscapes = true := by cases multiline <;> rfl
  induction text generalizing seen with
  | nil => exact .nil
  | cons character text inductionHypothesis =>
      have escaped : Body (.quoted multiline) seen ('"' :: text) ('\\' :: (['"'] ++
          writeEscaped multiline (if multiline then 2 else 0) 0 text)) :=
        .escape hasEscapes (.short (by decide)) inductionHypothesis
      rw [writeEscaped]
      by_cases isQuote : character = '"'
      · subst isQuote
        rw [if_pos (beq_self_eq_true _)]
        cases multiline with
        | false => exact escaped
        | true =>
            by_cases fewer : seen < 2
            · rw [if_pos rfl, if_pos fewer]
              exact .delimiter rfl fewer inductionHypothesis
            · rw [if_pos rfl, if_neg fewer]
              exact escaped
      · rw [if_neg (by simpa using isQuote)]
        exact body_writeCharacter multiline isQuote inductionHypothesis

/-- What may stand for itself in every form of a string. -/
theorem body_plain {form : TextForm} (printable : ∀ character ∈ text, Printable character)
    (noDelimiter : form.delimiter ∉ text) (noBackslash : form.hasEscapes = true → '\\' ∉ text) :
    Body form 0 text text := by
  induction text with
  | nil => exact .nil
  | cons character text inductionHypothesis =>
      obtain ⟨different, noDelimiter⟩ := List.ne_and_not_mem_of_not_mem_cons noDelimiter
      refine .plain (printable character List.mem_cons_self) different.symm
        (fun hasEscapes same => noBackslash hasEscapes (same ▸ List.mem_cons_self))
        (inductionHypothesis (fun other membership =>
          printable other (List.mem_cons_of_mem _ membership)) noDelimiter
          fun hasEscapes membership =>
            noBackslash hasEscapes (List.mem_cons_of_mem _ membership))

theorem le_longestRun (delimiter : Char) (current : Nat) (text : List Char) :
    current ≤ longestRun delimiter current text := by
  induction text generalizing current with
  | nil => exact Nat.le_refl current
  | cons character text inductionHypothesis =>
      rw [longestRun]
      split
      · exact Nat.le_of_succ_le (inductionHypothesis (current + 1))
      · exact Nat.le_max_left _ _

/-- Where there are never three apostrophes in a row, none closes the string. -/
theorem body_multilineLiteral {seen : Nat}
    (plain : ∀ character ∈ text, isControl character = false)
    (runs : longestRun '\x27' seen text ≤ 2) : Body .multilineLiteral seen text text := by
  induction text generalizing seen with
  | nil => exact .nil
  | cons character text inductionHypothesis =>
      have further {seen : Nat} (runs : longestRun '\x27' seen text ≤ 2) :=
        inductionHypothesis (fun other membership =>
          plain other (List.mem_cons_of_mem _ membership)) runs
      rw [longestRun] at runs
      by_cases isDelimiter : character = '\x27'
      · subst isDelimiter
        rw [if_pos (beq_self_eq_true _)] at runs
        exact .delimiter rfl (Nat.le_trans (le_longestRun _ _ _) runs) (further runs)
      · rw [if_neg (by simpa using isDelimiter)] at runs
        have body := further (Nat.le_trans (Nat.le_max_right _ _) runs)
        by_cases isLineEnd : character = '\n'
        · subst isLineEnd
          exact .lineEnd rfl (.inl rfl) body
        · exact .plain
            (printable_of_not_isControl (plain character List.mem_cons_self) isLineEnd)
            isDelimiter (fun impossible => by cases impossible) body

/-- Whether a text can stand in a form. Where there are escapes, every text can. -/
def TextForm.Holds (text : List Char) : TextForm → Prop
  | .basic | .multilineBasic => True
  | .literal => (∀ character ∈ text, Printable character) ∧ '\x27' ∉ text
  | .multilineLiteral =>
      (∀ character ∈ text, isControl character = false) ∧ longestRun '\x27' 0 text ≤ 2

theorem TextForm.holds_choose (text : List Char) : (choose text).Holds text := by
  unfold choose
  dsimp only
  split_ifs with basic literal multilineBasic multilineLiteral oneLine
  · trivial
  · obtain ⟨⟨plain, oneLine⟩, noApostrophe⟩ :
        ((∀ character ∈ text, isControl character = false) ∧ '\n' ∉ text) ∧ '\x27' ∉ text := by
      simpa using literal
    refine ⟨fun character membership => ?_, noApostrophe⟩
    have noLineEnd : character ≠ '\n' := by
      rintro rfl
      exact oneLine membership
    exact printable_of_not_isControl (plain character membership) noLineEnd
  · trivial
  · obtain ⟨plain, runs⟩ :
        (∀ character ∈ text, isControl character = false) ∧ longestRun '\x27' 0 text ≤ 2 := by
      simpa using multilineLiteral
    exact ⟨plain, runs⟩
  · trivial
  · trivial

theorem not_mem_writeCharacter (multiline : Bool) (noLineEnd : character ≠ '\n') :
    '\n' ∉ writeCharacter multiline character := by
  unfold writeCharacter
  simp only [beq_iff_eq, noLineEnd, if_false]
  split_ifs
  · decide
  · decide
  · decide
  · decide
  · decide
  · have all : ∀ digit < 16, (Nat.digitChar digit).toUpper ≠ '\n' := by decide
    simp only [fourDigits, List.map_cons, List.map_nil, List.mem_cons, List.not_mem_nil, or_false,
      not_or]
    exact ⟨by decide, by decide, (all _ (Nat.mod_lt _ (by decide))).symm,
      (all _ (Nat.mod_lt _ (by decide))).symm, (all _ (Nat.mod_lt _ (by decide))).symm,
      (all _ (Nat.mod_lt _ (by decide))).symm⟩
  · simpa using Ne.symm noLineEnd

theorem not_mem_writeEscaped (multiline : Bool) (allowed : Nat) {seen : Nat}
    (noLineEnd : '\n' ∉ text) : '\n' ∉ writeEscaped multiline allowed seen text := by
  induction text generalizing seen with
  | nil => exact List.not_mem_nil
  | cons character text inductionHypothesis =>
      obtain ⟨different, further⟩ := List.ne_and_not_mem_of_not_mem_cons noLineEnd
      rw [writeEscaped]
      split_ifs
      · exact List.not_mem_cons_of_ne_of_not_mem (by decide) (inductionHypothesis further)
      · exact List.not_mem_cons_of_ne_of_not_mem (by decide)
          (List.not_mem_cons_of_ne_of_not_mem (by decide) (inductionHypothesis further))
      · exact List.not_mem_append (not_mem_writeCharacter multiline (Ne.symm different))
          (inductionHypothesis further)

/-- A string of several lines begins on a line of its own, and otherwise has none. -/
theorem opens_leadingNewline {body : List Char} (noLineEnd : '\n' ∉ text → '\n' ∉ body) :
    LineEnd (leadingNewline text) ∨
      leadingNewline text = [] ∧ ∀ ending, LineEnd ending → ¬ending <+: body := by
  rw [leadingNewline]
  by_cases hasLineEnd : '\n' ∈ text
  · rw [if_pos (by simpa using hasLineEnd)]
    exact .inl (.inl rfl)
  · rw [if_neg (by simpa using hasLineEnd)]
    refine .inr ⟨rfl, fun ending isEnd isPrefix => noLineEnd hasLineEnd (isPrefix.subset ?_)⟩
    rcases isEnd with rfl | rfl <;> simp

theorem textWritten_write (form : TextForm) (holds : form.Holds text) :
    TextWritten (String.ofList text) (form.write text) := by
  have isText : (String.ofList text).toList = text := String.toList_ofList
  cases form with
  | basic =>
      refine @TextWritten.line _ .basic _ rfl ?_
      rw [isText]
      exact body_writeEscaped false text
  | literal =>
      refine @TextWritten.line _ .literal _ rfl ?_
      rw [isText]
      exact body_plain holds.1 holds.2 fun impossible => by cases impossible
  | multilineBasic =>
      have body : Body .multilineBasic 0 (String.ofList text).toList
          (writeEscaped true 2 0 text) := by
        rw [isText]
        exact body_writeEscaped true text
      have written := TextWritten.lines rfl
        (opens_leadingNewline (not_mem_writeEscaped true 2)) body
      simpa [TextForm.write, TextForm.delimiter, List.replicate] using written
  | multilineLiteral =>
      have body : Body .multilineLiteral 0 (String.ofList text).toList text := by
        rw [isText]
        exact body_multilineLiteral holds.1 holds.2
      have written := TextWritten.lines rfl (opens_leadingNewline id) body
      simpa [TextForm.write, TextForm.delimiter, List.replicate] using written

theorem textWritten_writeText (value : String) : TextWritten value (writeText value).toList := by
  rw [writeText, String.toList_ofList]
  have written := textWritten_write _ (TextForm.holds_choose value.toList)
  rwa [String.ofList_toList] at written

/-! ### Numbers -/

theorem exists_toDigits (value : Nat) :
    ∃ values, List.Forall₂ (IsDigit 10) values (Nat.toDigits 10 value) ∧
      number 10 values = value := by
  have isDigit {value : Nat} (small : value < 10) : IsDigit 10 value (Nat.digitChar value) :=
    ⟨small, .inl rfl⟩
  induction value using Nat.strongRecOn with
  | ind value inductionHypothesis =>
      rw [Nat.toDigits_eq_if (by decide)]
      split
      · next small =>
          exact ⟨[value], .cons (isDigit small) .nil, Nat.ofDigits_singleton⟩
      · next large =>
          obtain ⟨values, areDigits, isNumber⟩ := inductionHypothesis (value / 10) (by omega)
          refine ⟨values ++ [value % 10], ?_, ?_⟩
          · exact List.rel_append areDigits
              (.cons (isDigit (Nat.mod_lt _ (by decide))) .nil)
          · rw [number] at isNumber ⊢
            rw [List.reverse_append, List.reverse_singleton, List.singleton_append,
              Nat.ofDigits_cons, isNumber]
            exact Nat.mod_add_div value 10

theorem digits_of_forall₂ {base : Nat} {values : List Nat} {letters : List Char}
    (areDigits : List.Forall₂ (IsDigit base) values letters) (nonempty : letters ≠ []) :
    Digits base values letters := by
  induction areDigits with
  | nil => exact absurd rfl nonempty
  | @cons value digit values letters isDigit rest inductionHypothesis =>
      cases rest with
      | nil => exact .last isDigit
      | cons next others => exact .next isDigit (inductionHypothesis (List.cons_ne_nil _ _))

theorem naturalWritten_repr (value : Nat) : NaturalWritten value (Nat.repr value).toList := by
  obtain ⟨values, areDigits, isNumber⟩ := exists_toDigits value
  rw [Nat.toList_repr]
  refine @NaturalWritten.decimal value [] _ values (.inl rfl)
    (digits_of_forall₂ areDigits Nat.toDigits_ne_nil) ?_ isNumber
  intro leading
  rcases Nat.eq_zero_or_pos value with rfl | positive
  · rfl
  · exact absurd leading (Text.head?_toDigits_ne_zero positive)

/-! ### Settings -/

namespace Setting

/-- Whether a setting can be written: numbers have 64 bits and a sign. -/
def inRange : Setting → Bool
  | .natural value => value < Nat.pow 2 63
  | _ => true

/-- The line of a string in a list. -/
def itemLine (value : String) : String :=
  "    " ++ writeText value ++ ",\n"

theorem itemsWritten_lines (values : List String) :
    ItemsWritten values ('\n' :: ((String.join (values.map itemLine)).toList ++ [']'])) := by
  have lineFeed : Gap true ['\n'] := .lineEnd (.inl rfl) .nil
  induction values with
  | nil => exact .nil lineFeed
  | cons value values inductionHypothesis =>
      have indented : Gap true ['\n', ' ', ' ', ' ', ' '] :=
        .lineEnd (.inl rfl) (.blank (.inl rfl) (.blank (.inl rfl) (.blank (.inl rfl)
          (.blank (.inl rfl) .nil))))
      have written := ItemsWritten.next indented (textWritten_writeText value) .nil
        inductionHypothesis
      simpa [itemLine, String.join_cons] using written

theorem written_texts (values : List String) :
    (Setting.texts values).Written (Setting.texts values).write.toList := by
  match values with
  | [] => exact .texts (.nil .nil)
  | [value] =>
      have written : Written (.texts [value]) _ :=
        .texts (.last .nil (textWritten_writeText value) .nil)
      simpa [write] using written
  | first :: second :: others =>
      have written : Written (.texts (first :: second :: others)) _ :=
        .texts (itemsWritten_lines (first :: second :: others))
      have parts : (texts (first :: second :: others)).write =
          "[\n" ++ String.join ((first :: second :: others).map itemLine) ++ "]" := rfl
      rw [parts]
      simpa using written

theorem written_write {setting : Setting} (inRange : setting.inRange = true) :
    setting.Written setting.write.toList := by
  cases setting with
  | boolean value =>
      cases value with
      | true => exact .holds
      | false => exact .fails
  | natural value =>
      exact .natural (by simpa [Setting.inRange] using inRange) (naturalWritten_repr value)
  | text value => exact .text (textWritten_writeText value)
  | texts values => exact written_texts values

end Setting

/-! ### Documents -/

/-- Whether a name can stand without quotation marks. -/
def isBareKey (name : String) : Bool :=
  name != "" && name.toList.all isBareKeyCharacter

theorem keyWritten_of_isBareKey (bare : isBareKey name = true) :
    KeyWritten ⟨[], name⟩ name.toList := by
  rw [isBareKey, Bool.and_eq_true, bne_iff_ne, List.all_eq_true] at bare
  exact .last (.bare bare.1 fun character membership =>
    (isBareKeyCharacter_iff character).mp (bare.2 character membership))

/-- The statements of entries. -/
def Settings.clauses (settings : Settings) : List Clause :=
  settings.map fun entry => .assignment ⟨[], entry.1⟩ (.setting entry.2)

/-- The statements of a document. -/
def Layout.clauses (layout : Layout) : List Clause :=
  layout.settings.clauses ++
    layout.tables.flatMap fun table => .header ⟨[], table.1⟩ :: table.2.clauses

/-- Entries that can stand under one header. -/
structure Settings.Legible (settings : Settings) : Prop where
  bare : ∀ entry ∈ settings, isBareKey entry.1 = true
  inRange : ∀ entry ∈ settings, entry.2.inRange = true
  distinct : (settings.map Prod.fst).Nodup

structure Layout.Legible (layout : Layout) : Prop where
  settings : layout.settings.Legible
  names : ∀ table ∈ layout.tables, isBareKey table.1 = true
  tables : ∀ table ∈ layout.tables, table.2.Legible
  distinct : (layout.settings.map Prod.fst ++ layout.tables.map Prod.fst).Nodup

section Written

variable {clause : Clause} {clauses : List Clause} {letters others : List Char}

theorem blanks_nil : Blanks [] := fun _ membership => by cases membership

theorem blanks_space : Blanks [' '] := by
  simp [Blanks]

theorem remark_nil : Remark [] :=
  ⟨[], [], rfl, blanks_nil, .inl rfl⟩

/-- A statement on a line of its own before the other lines. -/
theorem DocumentWritten.line (written : clause.Written letters)
    (document : DocumentWritten clauses others) :
    DocumentWritten (clause :: clauses) (letters ++ '\n' :: others) := by
  exact .next .nil written remark_nil (.inl rfl) document

theorem DocumentWritten.lineFeed (document : DocumentWritten clauses others) :
    DocumentWritten clauses ('\n' :: others) := by
  have further {gap : List Char} (isGap : Gap true gap) : Gap true ('\n' :: gap) :=
    .lineEnd (.inl rfl) isGap
  cases document with
  | nil isGap isRemark => exact .nil (further isGap) isRemark
  | last isGap written isRemark => exact .last (further isGap) written isRemark
  | next isGap written isRemark isEnd document =>
      exact .next (further isGap) written isRemark isEnd document

theorem DocumentWritten.settings {settings : Settings} (legible : settings.Legible)
    (document : DocumentWritten clauses others) :
    DocumentWritten (settings.clauses ++ clauses) (settings.write.toList ++ others) := by
  induction settings with
  | nil => simpa [Settings.clauses, Settings.write] using document
  | cons entry settings inductionHypothesis =>
      have assigned : Assigned ⟨[], entry.1⟩ entry.2.write.toList
          (entry.1.toList ++ ([' '] ++ '=' :: ([' '] ++ entry.2.write.toList))) :=
        .intro (keyWritten_of_isBareKey (legible.bare entry List.mem_cons_self))
          blanks_space blanks_space
      have isSetting := Setting.written_write (legible.inRange entry List.mem_cons_self)
      have further := inductionHypothesis
        { bare := fun other membership => legible.bare other (List.mem_cons_of_mem _ membership)
          inRange := fun other membership =>
            legible.inRange other (List.mem_cons_of_mem _ membership)
          distinct := (List.nodup_cons.mp legible.distinct).2 }
      have written := further.line (.assignment (.setting isSetting) assigned)
      simpa [Settings.clauses, Settings.write, String.join_cons] using written

theorem DocumentWritten.tables {tables : List (String × Settings)}
    (names : ∀ table ∈ tables, isBareKey table.1 = true)
    (legible : ∀ table ∈ tables, table.2.Legible) :
    DocumentWritten (tables.flatMap fun table => .header ⟨[], table.1⟩ :: table.2.clauses)
      (String.join (tables.map fun table =>
        "\n[" ++ table.1 ++ "]\n" ++ table.2.write)).toList := by
  induction tables with
  | nil =>
      exact .nil .nil remark_nil
  | cons table tables inductionHypothesis =>
      have further := inductionHypothesis
        (fun other membership => names other (List.mem_cons_of_mem _ membership))
        (fun other membership => legible other (List.mem_cons_of_mem _ membership))
      have key := keyWritten_of_isBareKey (names table List.mem_cons_self)
      have written := ((further.settings (legible table List.mem_cons_self)).line
        (.header blanks_nil key blanks_nil)).lineFeed
      simpa [String.join_cons] using written

theorem documentWritten_write {layout : Layout} (legible : layout.Legible) :
    DocumentWritten layout.clauses layout.write.toList := by
  rw [Layout.write, String.toList_append]
  exact (DocumentWritten.tables legible.names legible.tables).settings legible.settings

end Written

/-! ### What is written -/

theorem definitions_settings (settings : Settings) (scope : List String) (clauses : List Clause) :
    definitions scope (settings.clauses ++ clauses) =
      settings.map (fun entry => .content (scope ++ [entry.1]) (.setting entry.2)) ++
        definitions scope clauses := by
  induction settings with
  | nil => rfl
  | cons entry settings inductionHypothesis =>
      rw [List.map_cons, List.cons_append, ← inductionHypothesis]
      rfl

theorem definitions_tables (tables : List (String × Settings)) (scope : List String) :
    definitions scope
        (tables.flatMap fun table => .header ⟨[], table.1⟩ :: table.2.clauses) =
      tables.flatMap fun table => .opened [table.1] ::
        table.2.map fun entry => .content [table.1, entry.1] (.setting entry.2) := by
  induction tables generalizing scope with
  | nil => rfl
  | cons table tables inductionHypothesis =>
      have inside := definitions_settings table.2 [table.1]
        (tables.flatMap fun table => .header ⟨[], table.1⟩ :: table.2.clauses)
      rw [inductionHypothesis] at inside
      rw [List.flatMap_cons, List.flatMap_cons, List.cons_append, List.cons_append]
      exact congrArg _ inside

theorem definitions_layout (layout : Layout) :
    definitions [] layout.clauses =
      layout.settings.map (fun entry => .content [entry.1] (.setting entry.2)) ++
        layout.tables.flatMap fun table => .opened [table.1] ::
          table.2.map fun entry => .content [table.1, entry.1] (.setting entry.2) := by
  rw [Layout.clauses, definitions_settings, definitions_tables]
  rfl

theorem settings_layout (layout : Layout) :
    settings layout.clauses = layout.settings.map (fun entry => ([entry.1], entry.2)) ++
      layout.tables.flatMap fun table =>
        table.2.map fun entry => ([table.1, entry.1], entry.2) := by
  have entries (table : String × Settings) (scope : List String) :
      (table.2.map fun entry => Definition.content (scope ++ [entry.1]) (.setting entry.2)).flatMap
        Definition.settings = table.2.map fun entry => (scope ++ [entry.1], entry.2) := by
    rw [List.flatMap_map, List.map_eq_flatMap]
    rfl
  rw [settings, definitions_layout, List.flatMap_append, List.flatMap_assoc]
  exact congrArg₂ (· ++ ·) (entries ("", layout.settings) [])
    (congrArg layout.tables.flatMap (funext fun table => entries table [table.1]))

theorem tables_layout (layout : Layout) :
    tables layout.clauses = layout.tables.map fun table => [table.1] := by
  have entries (settings : Settings) (scope : List String) :
      (settings.map fun entry =>
        Definition.content (scope ++ [entry.1]) (.setting entry.2)).filterMap
          Definition.table? = [] := by
    rw [List.filterMap_map, List.filterMap_eq_nil_iff]
    exact fun _ _ => rfl
  have opened (table : String × Settings) :
      (Definition.opened [table.1] :: table.2.map fun entry =>
        Definition.content [table.1, entry.1] (.setting entry.2)).filterMap Definition.table? =
          [[table.1]] :=
    congrArg ([table.1] :: ·) (entries table.2 [table.1])
  rw [tables, definitions_layout, List.filterMap_append, List.filterMap_flatMap,
    funext opened]
  exact (congrArg (· ++ _) (entries layout.settings [])).trans List.map_eq_flatMap.symm

/-- What is defined at places that do not lie in one another is compatible. -/
theorem Definition.compatible_of_not_prefix {first second : Definition}
    (before : ¬first.place <+: second.place) (behind : ¬second.place <+: first.place) :
    first.Compatible second := by
  have different : first.place ≠ second.place := fun same => before (same ▸ List.prefix_rfl)
  cases first with
  | content place content =>
      cases second with
      | content other content => exact ⟨before, behind⟩
      | opened other => exact before
      | dotted other => exact before
  | opened place =>
      cases second with
      | content other content => exact behind
      | opened other => exact different
      | dotted other => exact behind
  | dotted place =>
      cases second with
      | content other content => exact behind
      | opened other => exact different
      | dotted other => trivial

theorem pairwise_settings {settings : Settings} (distinct : (settings.map Prod.fst).Nodup)
    (scope : List String) :
    (settings.map fun entry : String × Setting =>
      Definition.content (scope ++ [entry.1]) (.setting entry.2)).Pairwise
        Definition.Compatible := by
  rw [List.pairwise_map]
  refine (List.pairwise_map.mp distinct).imp fun {first second} different => ?_
  have apart {name other : String} (different : name ≠ other) :
      ¬scope ++ [name] <+: scope ++ [other] := by
    rw [List.prefix_append_right_inj, List.cons_prefix_cons]
    exact fun same => different same.1
  exact Definition.compatible_of_not_prefix (apart different) (apart different.symm)

/-- What is defined in a table lies at or below the place of its header. -/
theorem exists_place_of_mem {table : String × Settings} {definition : Definition}
    (membership : definition ∈ Definition.opened [table.1] ::
      table.2.map fun entry => .content [table.1, entry.1] (.setting entry.2)) :
    ∃ path, definition.place = table.1 :: path := by
  rcases List.mem_cons.mp membership with rfl | isEntry
  · exact ⟨[], rfl⟩
  · obtain ⟨entry, _, rfl⟩ := List.mem_map.mp isEntry
    exact ⟨[entry.1], rfl⟩

theorem compatible_of_ne {first second : Definition} {name other : String}
    {path further : List String} (isFirst : first.place = name :: path)
    (isSecond : second.place = other :: further) (different : name ≠ other) :
    first.Compatible second := by
  refine Definition.compatible_of_not_prefix ?_ ?_
  · rw [isFirst, isSecond, List.cons_prefix_cons]
    exact fun same => different same.1
  · rw [isFirst, isSecond, List.cons_prefix_cons]
    exact fun same => different same.1.symm

theorem pairwise_table {table : String × Settings} (distinct : (table.2.map Prod.fst).Nodup) :
    (Definition.opened [table.1] ::
      table.2.map fun entry => .content [table.1, entry.1] (.setting entry.2)).Pairwise
        Definition.Compatible := by
  refine List.pairwise_cons.mpr ⟨?_, pairwise_settings distinct [table.1]⟩
  intro definition membership
  obtain ⟨entry, _, rfl⟩ := List.mem_map.mp membership
  exact fun longer => absurd longer.length_le (by simp)

theorem legal_layout {layout : Layout} (legible : layout.Legible) : Legal layout.clauses where
  document := by
    rw [definitions_layout]
    obtain ⟨_, distinctTables, apart⟩ := List.nodup_append.mp legible.distinct
    refine List.pairwise_append.mpr ⟨pairwise_settings legible.settings.distinct [],
      List.pairwise_flatMap.mpr ⟨fun table membership =>
        pairwise_table (legible.tables table membership).distinct, ?_⟩, ?_⟩
    · refine (List.pairwise_map.mp distinctTables).imp fun {first second} different => ?_
      intro inFirst isFirst inSecond isSecond
      obtain ⟨_, firstPlace⟩ := exists_place_of_mem isFirst
      obtain ⟨_, secondPlace⟩ := exists_place_of_mem isSecond
      exact compatible_of_ne firstPlace secondPlace different
    · intro inSettings isSetting inTables isTable
      obtain ⟨entry, isEntry, rfl⟩ := List.mem_map.mp isSetting
      obtain ⟨table, membership, isTable⟩ := List.mem_flatMap.mp isTable
      obtain ⟨_, tablePlace⟩ := exists_place_of_mem isTable
      exact compatible_of_ne rfl tablePlace (apart entry.1 (List.mem_map_of_mem isEntry) table.1
        (List.mem_map_of_mem membership))
  inlineTables place members defined := by
    rw [definitions_layout] at defined
    simp at defined

end Tokenizer.Toml
