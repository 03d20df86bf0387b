import Tokenizer.Proofs.Config.Saving

/-!
Configuration files that set only some of the fields.

However such a file is laid out, its fields are loaded, and every other field has the value it has
in the default configuration. In particular it makes no difference whether a table in which
nothing is set is empty or missing.
-/

namespace Tokenizer.Config

open Toml

theorem nameWritten_quoted {form : TextForm} (name : String) (oneLine : form.isMultiline = false)
    (printable : name.toList.all isTextCharacter = true)
    (noDelimiter : form.delimiter ∉ name.toList)
    (noBackslash : form.hasEscapes = true → '\\' ∉ name.toList) :
    NameWritten name (form.delimiter :: (name.toList ++ [form.delimiter])) :=
  .quoted oneLine (body_plain (printable_of_all printable) noDelimiter noBackslash)

/-- An inline table with a quoted key and a number in another base, and a dotted key with blanks
and a comment behind its value. -/
theorem describes_inline_and_dotted {config : Config} (timeout : config.lexer.timeout = some 65535)
    (summary : config.report.summary = true) (output : config.report.output = none) :
    Describes
      ("# short\nlexer = \x7b \x27timeout_ms\x27 = 0xFf_FF \x7d\r\n" ++
        "\"report\" . summary=true # dotted")
      config [.summary, .timeout, .output] := by
  refine ⟨[.assignment ⟨[], "lexer"⟩ (.inlineTable [(⟨[], "timeout_ms"⟩, .natural 65535)]),
    .assignment ⟨["report"], "summary"⟩ (.setting (.boolean true))], ?_, ?_⟩
  · have comment (remark : String) (printable : remark.toList.all isTextCharacter = true) :
        Comment ('#' :: remark.toList) := ⟨_, rfl, printable_of_all printable⟩
    have number : NaturalWritten 65535 "0xFf_FF".toList := by
      have upper : IsDigit 16 15 'F' := ⟨by decide, .inr (by decide)⟩
      have lower : IsDigit 16 15 'f' := ⟨by decide, .inl (by decide)⟩
      exact @NaturalWritten.radix 65535 'x' 16 "Ff_FF".toList [15, 15, 15, 15] (by decide)
        (.next upper (.underscore lower (.next upper (.last upper)))) (by decide)
    have timeoutName := @nameWritten_quoted .literal "timeout_ms" rfl (by decide) (by decide)
      (by decide)
    have reportName := @nameWritten_quoted .basic "report" rfl (by decide) (by decide) (by decide)
    have inline : Content.Written (.inlineTable [(⟨[], "timeout_ms"⟩, .natural 65535)]) _ :=
      .inlineTable (.last blanks_space (.natural (by decide) number)
        (.intro (.last timeoutName) blanks_space blanks_space) blanks_space)
    have first : Clause.Written (.assignment ⟨[], "lexer"⟩ _) _ :=
      .assignment inline (.intro (keyWritten_of_isBareKey (by decide)) blanks_space blanks_space)
    have second : Clause.Written (.assignment ⟨["report"], "summary"⟩ _) _ :=
      .assignment (.setting .holds) (.intro (.dotted reportName blanks_space blanks_space
        (keyWritten_of_isBareKey (by decide))) blanks_nil blanks_nil)
    have remark : Remark (' ' :: '#' :: " dotted".toList) :=
      ⟨[' '], _, rfl, blanks_space, .inr (comment " dotted" (by decide))⟩
    exact DocumentWritten.next
      (.comment rfl (comment " short" (by decide)) (.inl rfl) .nil)
      first remark_nil (.inr rfl) (.last .nil second remark)
  · refine ⟨⟨?_, ?_⟩, ?_, ?_⟩
    · simp [definitions, Key.definitions, Key.full, Definition.Compatible]
    · intro place members defined
      simp [definitions, Key.definitions, Key.full] at defined
      simp [defined, memberDefinitions, Key.definitions]
    · intro place setting
      change (place, setting) ∈ [(["lexer", "timeout_ms"], Setting.natural 65535),
        (["report", "summary"], .boolean true)] ↔ _
      simp only [List.mem_cons, List.not_mem_nil, or_false, Prod.mk.injEq]
      constructor
      · rintro (⟨rfl, rfl⟩ | ⟨rfl, rfl⟩)
        · exact ⟨.timeout, by decide, rfl, by rw [Field.setting?, timeout]; rfl⟩
        · exact ⟨.summary, by decide, rfl, by rw [Field.setting?, summary]⟩
      · rintro ⟨field, rfl | rfl | rfl, rfl, isSet⟩
        · rw [Field.setting?, summary] at isSet
          cases isSet
          exact .inr ⟨rfl, rfl⟩
        · rw [Field.setting?, timeout] at isSet
          cases isSet
          exact .inl ⟨rfl, rfl⟩
        · rw [Field.setting?, output] at isSet
          cases isSet
    · intro place membership
      simp [Toml.tables, definitions, Key.definitions, Key.full, Definition.table?] at membership
      exact ⟨.lexer, membership⟩

/-- A document that sets some fields of a configuration is loaded as the configuration with the
values of these and the defaults of all others. Such a document is written with the fields and the
tables in any order, each table without a value being written or left out.

So the defaults of single fields are those of the tables and of the whole configuration. -/
theorem load_partial_document (config : Config) (fields : List Field) :
    (∀ text path (world : World), Describes text config fields →
      world.files.read path = .ok text.toUTF8 →
      (load path : StateM World _).run world = (.ok (config.restrict fields), world)) ∧
    ((∀ timeout, config.lexer.timeout = some timeout → timeout.toNat < 2 ^ 63) →
      fields.Nodup → ∀ tables : List Table, tables.Nodup →
      (∀ field ∈ fields, (field.setting? config).isSome = true →
        ∀ table ∈ field.table?, table ∈ tables) →
      Describes (partialLayout config fields tables).write config fields) ∧
    readLexer (.table []) = .ok {} ∧ readReport (.table []) = .ok {} ∧ ofEntries [] = .ok {} := by
  refine ⟨?_, ?_, readLexer_nil, readReport_nil, rfl⟩
  · intro text path world describes readable
    exact run_load readable (parse_of_describes describes)
  · intro small distinctFields tables distinctTables complete
    exact describes_partialLayout (isWritable_of_small small) distinctFields distinctTables complete

/-- Two fields of different tables and an output that is not set because there is none, once as
they are written, with the later one first, and once in other forms. -/
theorem load_partial_document_of_two_forms :
    let config : Config :=
      { verbose := true
        lexer := { keywords := ["let"], timeout := some 65535 }
        report := { append := false, summary := true, format := "json" } }
    let fields : List Field := [.summary, .timeout, .output]
    let written := "\n[report]\nsummary = true\n\n[lexer]\ntimeout_ms = 65535\n"
    let other := "# short\nlexer = \x7b \x27timeout_ms\x27 = 0xFf_FF \x7d\r\n" ++
      "\"report\" . summary=true # dotted"
    let files (text : String) : FileSystem :=
      { entry := fun place =>
          if place = [] then some .directory
          else if place = ["ratt.toml"] then some (.file text.toUTF8) else none
        workingDirectory := [] }
    ∀ text ∈ [written, other], Describes text config fields ∧
      (load "ratt.toml" : StateM World _).run { files := files text } =
        (.ok { lexer := { timeout := some 65535 }, report := { summary := true } },
          { files := files text }) := by
  intro config fields written other files text isText
  have whole := load_partial_document config fields
  have describes : Describes text config fields := by
    rcases List.mem_pair.mp isText with rfl | rfl
    · have small : ∀ timeout, config.lexer.timeout = some timeout → timeout.toNat < 2 ^ 63 := by
        intro timeout isTimeout
        cases isTimeout
        decide
      exact whole.2.1 small (by decide) [.report, .lexer] (by decide) (by decide)
    · exact describes_inline_and_dotted rfl rfl rfl
  exact ⟨describes, whole.1 text "ratt.toml" { files := files text } describes rfl⟩

end Tokenizer.Config
