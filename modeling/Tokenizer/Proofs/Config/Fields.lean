import Mathlib.Data.List.Nodup
import Tokenizer.Config
import Tokenizer.Proofs.Toml.Writing

/-!
Documents that set some fields of a configuration.

All that is particular to a field is said once: its name, its table and what is written for it.
A document describes some fields if it has their settings at their places and no others, in
whatever form, whatever order, and whatever kind of tables.
-/

namespace Tokenizer.Config

open Toml

/-! ### Fields -/

/-- The tables of a document. -/
inductive Table where
  | lexer
  | report
  deriving DecidableEq, Repr

/-- The fields of a configuration. -/
inductive Field where
  | verbose
  | keywords
  | timeout
  | output
  | append
  | summary
  | format
  deriving DecidableEq, Repr

namespace Table

def name : Table → String
  | .lexer => "lexer"
  | .report => "report"

def all : List Table :=
  [.lexer, .report]

theorem mem_all (table : Table) : table ∈ all := by
  cases table <;> decide

theorem name_injective : Function.Injective name := fun first second same =>
  List.inj_on_of_nodup_map (l := all) (by decide) (mem_all first) (mem_all second) same

theorem isBareKey_name (table : Table) : isBareKey table.name = true := by
  cases table <;> decide

end Table

namespace Field

def name : Field → String
  | .verbose => "verbose"
  | .keywords => "keywords"
  | .timeout => "timeout_ms"
  | .output => "output"
  | .append => "append"
  | .summary => "summary"
  | .format => "format"

/-- The table in which a field stands, unless it is an entry of the document itself. -/
def table? : Field → Option Table
  | .verbose => none
  | .keywords | .timeout => some .lexer
  | .output | .append | .summary | .format => some .report

/-- Where a field stands in a document. -/
def place (field : Field) : List String :=
  (field.table?.map Table.name).toList ++ [field.name]

/-- What is written for a field. A field without a value is left out. -/
def setting? (config : Config) : Field → Option Setting
  | .verbose => some (.boolean config.verbose)
  | .keywords => some (.texts config.lexer.keywords)
  | .timeout => config.lexer.timeout.map fun timeout => .natural timeout.toNat
  | .output => config.report.output.map .text
  | .append => some (.boolean config.report.append)
  | .summary => some (.boolean config.report.summary)
  | .format => some (.text config.report.format)

def all : List Field :=
  [.verbose, .keywords, .timeout, .output, .append, .summary, .format]

theorem mem_all (field : Field) : field ∈ all := by
  cases field <;> decide

theorem name_injective : Function.Injective name := fun first second same =>
  List.inj_on_of_nodup_map (l := all) (by decide) (mem_all first) (mem_all second) same

theorem isBareKey_name (field : Field) : isBareKey field.name = true := by
  cases field <;> decide

theorem name_ne (field : Field) (table : Table) : field.name ≠ table.name := by
  cases field <;> cases table <;> decide

theorem eq_of_place_prefix {field other : Field} (isPrefix : field.place <+: other.place) :
    field = other := by
  revert isPrefix
  cases field <;> cases other <;> decide

theorem not_place_prefix (field : Field) (table : Table) : ¬field.place <+: [table.name] := by
  cases field <;> cases table <;> decide

theorem length_place_le (field : Field) : field.place.length ≤ depthLimit := by
  cases field <;> decide

theorem inRange_of_setting? {config : Config} {field : Field} {setting : Setting}
    (writable : config.isWritable = true) (isSet : field.setting? config = some setting) :
    setting.inRange = true := by
  cases field with
  | timeout =>
      obtain ⟨timeout, isTimeout, rfl⟩ := Option.map_eq_some_iff.mp isSet
      rw [isWritable, isTimeout] at writable
      exact writable
  | output =>
      obtain ⟨output, _, rfl⟩ := Option.map_eq_some_iff.mp isSet
      rfl
  | verbose | keywords | append | summary | format =>
      cases isSet
      rfl

end Field

/-! ### Documents that set some fields -/

section Named

variable {Key Item : Type} {name : Key → String} {keys : List Key} {item? : Key → Option Item}

/-- What there is for some keys, under their names. -/
def named (name : Key → String) (item? : Key → Option Item) (keys : List Key) :
    List (String × Item) :=
  keys.filterMap fun key => (item? key).map fun item => (name key, item)

theorem mem_named_iff {entry : String × Item} :
    entry ∈ named name item? keys ↔
      ∃ key ∈ keys, name key = entry.1 ∧ item? key = some entry.2 := by
  rw [named, List.mem_filterMap]
  refine exists_congr fun key => and_congr_right fun _ => ?_
  rw [Option.map_eq_some_iff]
  constructor
  · rintro ⟨item, found, rfl⟩
    exact ⟨rfl, found⟩
  · rintro ⟨isName, found⟩
    exact ⟨entry.2, found, by rw [isName]⟩

theorem nodup_named (injective : Function.Injective name) (distinct : keys.Nodup) :
    ((named name item? keys).map Prod.fst).Nodup := by
  rw [named, List.map_filterMap]
  refine List.Nodup.filterMap ?_ distinct
  intro first second text isFirst isSecond
  simp only [Option.mem_def, Option.map_eq_some_iff, exists_exists_and_eq_and] at isFirst isSecond
  obtain ⟨_, _, sameFirst⟩ := isFirst
  obtain ⟨_, _, sameSecond⟩ := isSecond
  exact injective (sameFirst.trans sameSecond.symm)

end Named

/-- What is written for some fields of one table, or of the document itself. -/
def settingsIn (config : Config) (fields : List Field) (table? : Option Table) : Settings :=
  named Field.name (fun field => if field.table? = table? then field.setting? config else none)
    fields

/-- The document that sets some fields, in this order, with these tables. -/
def partialLayout (config : Config) (fields : List Field) (tables : List Table) : Layout where
  settings := settingsIn config fields none
  tables := named Table.name (fun table => some (settingsIn config fields (some table))) tables

variable {config : Config} {fields : List Field} {tables : List Table}

theorem legible_settingsIn (writable : config.isWritable = true) (distinct : fields.Nodup)
    (table? : Option Table) : (settingsIn config fields table?).Legible where
  bare entry membership := by
    obtain ⟨field, _, isName, _⟩ := mem_named_iff.mp membership
    rw [← isName]
    exact field.isBareKey_name
  inRange entry membership := by
    obtain ⟨field, _, _, isSet⟩ := mem_named_iff.mp membership
    split at isSet
    · exact Field.inRange_of_setting? writable isSet
    · cases isSet
  distinct := nodup_named Field.name_injective distinct

theorem legible_partialLayout (writable : config.isWritable = true) (distinctFields : fields.Nodup)
    (distinctTables : tables.Nodup) : (partialLayout config fields tables).Legible where
  settings := legible_settingsIn writable distinctFields none
  names table membership := by
    obtain ⟨key, _, isName, _⟩ := mem_named_iff.mp membership
    rw [← isName]
    exact key.isBareKey_name
  tables table membership := by
    obtain ⟨key, _, _, isTable⟩ := mem_named_iff.mp membership
    rw [← Option.some.inj isTable]
    exact legible_settingsIn writable distinctFields (some key)
  distinct := by
    refine List.nodup_append.mpr ⟨nodup_named Field.name_injective distinctFields,
      nodup_named Table.name_injective distinctTables, ?_⟩
    intro text isField other isTable
    obtain ⟨entry, isEntry, rfl⟩ := List.mem_map.mp isField
    obtain ⟨named, isNamed, rfl⟩ := List.mem_map.mp isTable
    obtain ⟨field, _, fieldName, _⟩ := mem_named_iff.mp isEntry
    obtain ⟨table, _, tableName, _⟩ := mem_named_iff.mp isNamed
    rw [← fieldName, ← tableName]
    exact field.name_ne table

/-! ### What a document describes -/

/-- The statements of a document set some fields to what they are in a configuration, and no
others. They may open the tables in which fields stand. -/
structure Configures (clauses : List Clause) (config : Config) (fields : List Field) : Prop where
  legal : Legal clauses
  settings : ∀ place setting, (place, setting) ∈ Toml.settings clauses ↔
    ∃ field ∈ fields, field.place = place ∧ field.setting? config = some setting
  tables : ∀ place ∈ Toml.tables clauses, ∃ table : Table, place = [table.name]

/-- A text is a document that sets some fields to what they are in a configuration, and no
others. -/
def Describes (text : String) (config : Config) (fields : List Field) : Prop :=
  ∃ clauses, DocumentWritten clauses text.toList ∧ Configures clauses config fields

theorem mem_settingsIn_iff {table? : Option Table} {entry : String × Setting} :
    entry ∈ settingsIn config fields table? ↔
      ∃ field ∈ fields, field.table? = table? ∧ field.name = entry.1 ∧
        field.setting? config = some entry.2 := by
  rw [settingsIn, mem_named_iff]
  refine exists_congr fun field => and_congr_right fun _ => ?_
  by_cases inTable : field.table? = table?
  · simp [inTable]
  · simp [inTable]

/-- A document that is written with a table for every field with a value sets the fields. -/
theorem configures_partialLayout (writable : config.isWritable = true)
    (distinctFields : fields.Nodup) (distinctTables : tables.Nodup)
    (complete : ∀ field ∈ fields, (field.setting? config).isSome = true →
      ∀ table ∈ field.table?, table ∈ tables) :
    Configures (partialLayout config fields tables).clauses config fields where
  legal := legal_layout (legible_partialLayout writable distinctFields distinctTables)
  settings place setting := by
    rw [settings_layout, List.mem_append]
    constructor
    · rintro (membership | membership)
      · obtain ⟨entry, isEntry, same⟩ := List.mem_map.mp membership
        obtain ⟨field, isField, noTable, isName, isSet⟩ := mem_settingsIn_iff.mp isEntry
        cases same
        exact ⟨field, isField, by rw [Field.place, noTable, isName]; rfl, isSet⟩
      · obtain ⟨table, isTable, membership⟩ := List.mem_flatMap.mp membership
        obtain ⟨entry, isEntry, same⟩ := List.mem_map.mp membership
        obtain ⟨key, _, tableName, isSettings⟩ := mem_named_iff.mp isTable
        rw [← Option.some.inj isSettings] at isEntry
        obtain ⟨field, isField, inTable, isName, isSet⟩ := mem_settingsIn_iff.mp isEntry
        cases same
        exact ⟨field, isField, by rw [Field.place, inTable, isName, ← tableName]; rfl, isSet⟩
    · rintro ⟨field, isField, rfl, isSet⟩
      have isEntry : (field.name, setting) ∈ settingsIn config fields field.table? :=
        mem_settingsIn_iff.mpr ⟨field, isField, rfl, rfl, isSet⟩
      cases stands : field.table? with
      | none =>
          rw [stands] at isEntry
          exact .inl (List.mem_map.mpr ⟨_, isEntry, by rw [Field.place, stands]; rfl⟩)
      | some table =>
          rw [stands] at isEntry
          have isTable : (table.name, settingsIn config fields (some table)) ∈
              (partialLayout config fields tables).tables :=
            mem_named_iff.mpr ⟨table, complete field isField (by rw [isSet]; rfl) table stands,
              rfl, rfl⟩
          exact .inr (List.mem_flatMap.mpr ⟨_, isTable, List.mem_map.mpr
            ⟨_, isEntry, by rw [Field.place, stands]; rfl⟩⟩)
  tables place membership := by
    rw [tables_layout] at membership
    obtain ⟨table, isTable, rfl⟩ := List.mem_map.mp membership
    obtain ⟨key, _, isName, _⟩ := mem_named_iff.mp isTable
    exact ⟨key, by rw [isName]⟩

theorem describes_partialLayout (writable : config.isWritable = true)
    (distinctFields : fields.Nodup) (distinctTables : tables.Nodup)
    (complete : ∀ field ∈ fields, (field.setting? config).isSome = true →
      ∀ table ∈ field.table?, table ∈ tables) :
    Describes (partialLayout config fields tables).write config fields :=
  ⟨_, documentWritten_write (legible_partialLayout writable distinctFields distinctTables),
    configures_partialLayout writable distinctFields distinctTables complete⟩

/-! ### What is read -/

/-- The entries of a table. A missing table has none. -/
def Table.entries (document : List (String × Value)) (table : Table) : List (String × Value) :=
  match document.lookup table.name with
  | some (.table entries) => entries
  | _ => []

/-- The value of a field in a document. -/
def Field.find? (document : List (String × Value)) (field : Field) : Option Value :=
  match field.table? with
  | none => document.lookup field.name
  | some table => (table.entries document).lookup field.name

/-- What has been read of a document sets some fields to what they are in a configuration, and no
others. -/
structure Sets (config : Config) (fields : List Field) (document : List (String × Value)) :
    Prop where
  tables : ∀ (table : Table) (value : Value), document.lookup table.name = some value →
    ∃ entries, value = .table entries
  found : ∀ field : Field, field.find? document =
    if field ∈ fields then (field.setting? config).map Setting.toValue else none

theorem descend?_name (document : List (String × Value)) (name : String) :
    (Value.table document).descend? [name] = document.lookup name := by
  rw [Value.descend?]
  cases document.lookup name <;> rfl

theorem Field.find?_eq_descend? (document : List (String × Value)) (field : Field) :
    field.find? document = (Value.table document).descend? field.place := by
  rw [find?, place]
  cases field.table? with
  | none => exact (descend?_name document field.name).symm
  | some table =>
      change (table.entries document).lookup field.name =
        (document.lookup table.name).bind fun inner => inner.descend? [field.name]
      rw [Table.entries]
      cases document.lookup table.name with
      | none => rfl
      | some value =>
          cases value with
          | table entries => exact (descend?_name entries field.name).symm
          | string text => rfl
          | integer value => rfl
          | float literal => rfl
          | boolean value => rfl
          | dateTime literal => rfl
          | array items => rfl

variable {clauses : List Clause} {document : List (String × Value)}

/-- Nothing is found at the place of a field unless the field is set. -/
theorem Configures.exists_setting (configures : Configures clauses config fields)
    (denotes : Denotes clauses document) {field : Field} {value : Value}
    (found : (Value.table document).descend? field.place = some value) :
    field ∈ fields ∧ ∃ setting, field.setting? config = some setting ∧
      value = setting.toValue := by
  have isSettingAt {setting : Setting} {place : List String} (isPrefix : field.place <+: place)
      (isSetting : (place, setting) ∈ Toml.settings clauses) :
      field ∈ fields ∧ place = field.place ∧ field.setting? config = some setting := by
    obtain ⟨other, isField, rfl, isSet⟩ := (configures.settings place setting).mp isSetting
    obtain rfl := Field.eq_of_place_prefix isPrefix
    exact ⟨isField, rfl, isSet⟩
  have nonempty : field.place ≠ [] := by simp [Field.place]
  rcases denotes.only field.place value nonempty found with
    ⟨setting, isSetting, isValue⟩ | ⟨_, further, isPrefix, ⟨setting, isSetting⟩ | isTable⟩
  · obtain ⟨isField, _, isSet⟩ := isSettingAt List.prefix_rfl isSetting
    exact ⟨isField, setting, isSet, isValue⟩
  · obtain ⟨isField, rfl, isSet⟩ := isSettingAt isPrefix isSetting
    exact ⟨isField, setting, isSet,
      Option.some.inj (found.symm.trans (denotes.found _ _ isSetting))⟩
  · obtain ⟨table, rfl⟩ := configures.tables further isTable
    exact absurd isPrefix (field.not_place_prefix table)

theorem Configures.sets (configures : Configures clauses config fields)
    (denotes : Denotes clauses document) : Sets config fields document where
  tables table value found := by
    rw [← descend?_name] at found
    rcases denotes.only [table.name] value (List.cons_ne_nil _ _) found with
      ⟨setting, isSetting, _⟩ | ⟨isTable, _⟩
    · obtain ⟨field, _, same, _⟩ := (configures.settings _ _).mp isSetting
      exact absurd (same ▸ List.prefix_rfl) (field.not_place_prefix table)
    · exact isTable
  found field := by
    rw [Field.find?_eq_descend?]
    cases found : (Value.table document).descend? field.place with
    | some value =>
        obtain ⟨isField, setting, isSet, rfl⟩ := configures.exists_setting denotes found
        rw [if_pos isField, isSet]
        rfl
    | none =>
        split
        · next isField =>
            cases isSet : field.setting? config with
            | none => rfl
            | some setting =>
                have isFound := denotes.found _ setting
                  ((configures.settings _ _).mpr ⟨field, isField, rfl, isSet⟩)
                rw [found] at isFound
                cases isFound
        · rfl

/-- What a document describes is read. -/
theorem exists_sets_of_describes {text : String} (describes : Describes text config fields) :
    ∃ document, Toml.read text = .ok document ∧ Sets config fields document := by
  obtain ⟨clauses, written, configures⟩ := describes
  obtain ⟨document, read, denotes⟩ := read_document written configures.legal
    (fits_of_length_le
      (fun place setting membership => by
        obtain ⟨field, _, rfl, _⟩ := (configures.settings place setting).mp membership
        exact field.length_place_le)
      (fun place membership => by
        obtain ⟨table, rfl⟩ := configures.tables place membership
        exact Nat.le_add_left 1 78))
  exact ⟨document, read, configures.sets denotes⟩

end Tokenizer.Config
