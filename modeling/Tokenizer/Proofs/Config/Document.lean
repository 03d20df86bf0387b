import Tokenizer.Proofs.Config.Fields

/-!
Reading a configuration from a document.

A document that sets some fields is read as the configuration with the values of these and the
defaults of all others. A table in which no field is set may be empty or missing, because the
defaults of its fields and those of the table as a whole agree. The document that describes a
configuration sets all of its fields.
-/

namespace Tokenizer.Config

open Toml

variable {config : Config} {fields : List Field} {document : List (String × Value)}

/-! ### Defaults -/

/-- The defaults of the fields of a table are those of the table itself. -/
theorem readLexer_nil : readLexer (.table []) = .ok {} :=
  rfl

theorem readReport_nil : readReport (.table []) = .ok {} :=
  rfl

/-- A missing table is read as an empty one, if the defaults agree. -/
theorem readField_table {α : Type} {default : α} {read : Value → Except Problem α} {table : Table}
    (agree : read (.table []) = .ok default)
    (isTable : ∀ value, document.lookup table.name = some value →
      ∃ entries, value = .table entries) :
    readField default read (document.lookup table.name) =
      read (.table (table.entries document)) := by
  rw [Table.entries]
  cases found : document.lookup table.name with
  | none => exact agree.symm
  | some value =>
      obtain ⟨entries, rfl⟩ := isTable value found
      rfl

/-! ### What is read -/

/-- The configuration with the values of some fields and the defaults of all others. -/
def restrict (config : Config) (fields : List Field) : Config :=
  let defaults : Config := {}
  { verbose := if .verbose ∈ fields then config.verbose else defaults.verbose
    lexer :=
      { keywords := if .keywords ∈ fields then config.lexer.keywords else defaults.lexer.keywords
        timeout := if .timeout ∈ fields then config.lexer.timeout else defaults.lexer.timeout }
    report :=
      { output := if .output ∈ fields then config.report.output else defaults.report.output
        append := if .append ∈ fields then config.report.append else defaults.report.append
        summary := if .summary ∈ fields then config.report.summary else defaults.report.summary
        format := if .format ∈ fields then config.report.format else defaults.report.format } }

theorem readStrings_map (values : List String) :
    readStrings (.array (values.map .string)) = .ok values := by
  rw [readStrings]
  induction values with
  | nil => rfl
  | cons value values inductionHypothesis =>
      rw [List.map_cons, List.mapM_cons, inductionHypothesis]
      rfl

theorem readField_timeout (timeout : Option UInt64) :
    readField none (fun value => (readMilliseconds value).map some)
        ((timeout.map fun timeout => .natural timeout.toNat).map Setting.toValue) =
      .ok timeout := by
  cases timeout with
  | none => rfl
  | some timeout =>
      change Except.ok (some (UInt64.ofNat timeout.toNat)) = _
      rw [UInt64.ofNat_toNat]

theorem readField_output (output : Option String) :
    readField none (fun value => (readString value).map some)
        ((output.map .text).map Setting.toValue) =
      .ok output := by
  cases output <;> rfl

theorem readLexer_table (entries : List (String × Value)) :
    readLexer (.table entries) = (do
      let keywords ← readField defaultKeywords readStrings (entries.lookup "keywords")
      let timeout ← readField none (fun value => (readMilliseconds value).map some)
        (entries.lookup "timeout_ms")
      return { keywords, timeout }) :=
  rfl

theorem readReport_table (entries : List (String × Value)) :
    readReport (.table entries) = (do
      let output ← readField none (fun value => (readString value).map some)
        (entries.lookup "output")
      let append ← readField true readBoolean (entries.lookup "append")
      let summary ← readField false readBoolean (entries.lookup "summary")
      let format ← readField defaultFormat readString (entries.lookup "format")
      return { output, append, summary, format }) :=
  rfl

/-- A field that is set is read, and one that is not has its default. -/
theorem Sets.readField_eq {α : Type} {default value : α} {read : Value → Except Problem α}
    (sets : Sets config fields document) (field : Field)
    (reads : readField default read ((field.setting? config).map Setting.toValue) = .ok value) :
    readField default read (field.find? document) =
      .ok (if field ∈ fields then value else default) := by
  rw [sets.found field]
  split
  · exact reads
  · rfl

theorem readLexer_of_sets (sets : Sets config fields document) :
    readLexer (.table (Table.lexer.entries document)) = .ok (config.restrict fields).lexer := by
  have keywords : readField defaultKeywords readStrings
      ((Table.lexer.entries document).lookup "keywords") = .ok _ :=
    sets.readField_eq .keywords (readStrings_map config.lexer.keywords)
  have timeout : readField none (fun value => (readMilliseconds value).map some)
      ((Table.lexer.entries document).lookup "timeout_ms") = .ok _ :=
    sets.readField_eq .timeout (readField_timeout config.lexer.timeout)
  rw [readLexer_table, keywords, timeout]
  rfl

theorem readReport_of_sets (sets : Sets config fields document) :
    readReport (.table (Table.report.entries document)) = .ok (config.restrict fields).report := by
  have output : readField none (fun value => (readString value).map some)
      ((Table.report.entries document).lookup "output") = .ok _ :=
    sets.readField_eq .output (readField_output config.report.output)
  have append : readField true readBoolean
      ((Table.report.entries document).lookup "append") = .ok _ :=
    sets.readField_eq .append rfl
  have summary : readField false readBoolean
      ((Table.report.entries document).lookup "summary") = .ok _ :=
    sets.readField_eq .summary rfl
  have format : readField defaultFormat readString
      ((Table.report.entries document).lookup "format") = .ok _ :=
    sets.readField_eq .format rfl
  rw [readReport_table, output, append, summary, format]
  rfl

/-- A document that sets some fields is read as these, and the defaults elsewhere. -/
theorem ofEntries_of_sets (sets : Sets config fields document) :
    ofEntries document = .ok (config.restrict fields) := by
  have verbose : readField false readBoolean (document.lookup "verbose") = .ok _ :=
    sets.readField_eq .verbose rfl
  have lexer : readField {} readLexer (document.lookup "lexer") = _ :=
    readField_table readLexer_nil (sets.tables .lexer)
  have report : readField {} readReport (document.lookup "report") = _ :=
    readField_table readReport_nil (sets.tables .report)
  rw [ofEntries, verbose, lexer, report, readLexer_of_sets sets, readReport_of_sets sets]
  rfl

/-- A document that describes some fields is read as these, and the defaults elsewhere. -/
theorem parse_of_describes {text : String} (describes : Describes text config fields) :
    parse text = .ok (config.restrict fields) := by
  obtain ⟨document, reads, sets⟩ := exists_sets_of_describes describes
  rw [parse, reads]
  exact ofEntries_of_sets sets

/-! ### Documents of whole configurations -/

theorem restrict_all (config : Config) : config.restrict Field.all = config := by
  simp only [restrict, Field.mem_all, if_true]

theorem partialLayout_all (config : Config) :
    partialLayout config Field.all Table.all = config.toLayout := by
  obtain ⟨verbose, ⟨keywords, timeout⟩, ⟨output, append, summary, format⟩⟩ := config
  cases timeout <;> cases output <;> rfl

/-- A configuration that can be written down is read back from its text. -/
theorem parse_render {text : String} (rendered : config.render = .ok text) :
    parse text = .ok config := by
  rw [render] at rendered
  split at rendered
  · next writable =>
      cases rendered
      have describes :
          Describes (partialLayout config Field.all Table.all).write config Field.all :=
        describes_partialLayout writable (by decide) (by decide) fun _ _ _ table _ =>
          table.mem_all
      have parsed := parse_of_describes describes
      rwa [partialLayout_all, restrict_all] at parsed
  · cases rendered

/-- Nothing at all is the document of the default configuration. -/
theorem parse_empty : parse "" = .ok {} := by
  have describes : Describes (partialLayout {} [] []).write {} [] :=
    describes_partialLayout rfl List.nodup_nil List.nodup_nil (by simp)
  exact parse_of_describes describes

end Tokenizer.Config
