import Tokenizer.Proofs.Toml.Definitions
import Tokenizer.Proofs.Toml.Statement

/-!
Every legal document of settings is read, as what it denotes.

The invariant of the tables under construction is kept by every statement. In the end it says what
is found at each path.
-/

namespace Tokenizer.Toml

variable {clauses : List Clause} {scope place path : List String} {entries : Entries}
  {content : Content} {key : Key} {value leaf : Value} {setting : Setting}
  {all : List Definition} {members : List (Key × Setting)}

/-! ### What is built -/

theorem exists_definition (membership : .assignment key content ∈ clauses) (scope : List String) :
    ∃ front, .content (front ++ key.full) content ∈ definitions scope clauses := by
  induction clauses generalizing scope with
  | nil => cases membership
  | cons clause clauses inductionHypothesis =>
      rcases List.mem_cons.mp membership with rfl | further
      · exact ⟨scope, List.mem_append_left _ (mem_definitions_iff.mpr (.inr rfl))⟩
      · cases clause with
        | assignment other inner =>
            obtain ⟨front, defined⟩ := inductionHypothesis further scope
            exact ⟨front, List.mem_append_right _ defined⟩
        | header other =>
            obtain ⟨front, defined⟩ := inductionHypothesis further other.full
            exact ⟨front, List.mem_cons_of_mem _ defined⟩

theorem opened_mem_definitions (membership : .header key ∈ clauses) (scope : List String) :
    .opened key.full ∈ definitions scope clauses := by
  induction clauses generalizing scope with
  | nil => cases membership
  | cons clause clauses inductionHypothesis =>
      rcases List.mem_cons.mp membership with rfl | further
      · exact List.mem_cons_self
      · cases clause with
        | assignment other inner =>
            exact List.mem_append_right _ (inductionHypothesis further scope)
        | header other => exact List.mem_cons_of_mem _ (inductionHypothesis further other.full)

theorem exists_content_of_dotted_key (membership : .dotted place ∈ key.definitions scope content) :
    .content (scope ++ key.full) content ∈ key.definitions scope content ∧
      place <+: scope ++ key.full := by
  refine ⟨mem_definitions_iff.mpr (.inr rfl), ?_⟩
  rcases mem_definitions_iff.mp membership with ⟨path, isPrefix, _, isPlace⟩ | impossible
  · cases isPlace
    exact (List.prefix_append_right_inj scope).mpr (key.prefix_full isPrefix)
  · cases impossible

/-- A table that dotted keys make leads to something. -/
theorem exists_content_of_dotted (membership : .dotted place ∈ definitions scope clauses) :
    ∃ further content, .content further content ∈ definitions scope clauses ∧
      place <+: further := by
  induction clauses generalizing scope with
  | nil => cases membership
  | cons clause clauses inductionHypothesis =>
      cases clause with
      | header key =>
          rcases List.mem_cons.mp membership with impossible | membership
          · cases impossible
          · obtain ⟨further, content, defined, isPrefix⟩ := inductionHypothesis membership
            exact ⟨further, content, List.mem_cons_of_mem _ defined, isPrefix⟩
      | assignment key content =>
          rcases List.mem_append.mp membership with membership | membership
          · obtain ⟨defined, isPrefix⟩ := exists_content_of_dotted_key membership
            exact ⟨_, content, List.mem_append_left _ defined, isPrefix⟩
          · obtain ⟨further, content, defined, isPrefix⟩ := inductionHypothesis membership
            exact ⟨further, content, List.mem_append_right _ defined, isPrefix⟩

theorem exists_building {earlier : List Definition} {statements : List Statement}
    (reflects : Reflects earlier (.table .header entries)) (distinct : entries.Distinct)
    (inScope : scope = [] ∨ .opened scope ∈ earlier)
    (compatible : (earlier ++ definitions scope clauses).Pairwise Definition.Compatible)
    (areStatements : List.Forall₂ (fun clause statement => clause.toStatement = .ok statement)
      clauses statements) :
    ∃ building, statements.foldlM Building.add ⟨scope, entries⟩ = .ok building ∧
      Reflects (earlier ++ definitions scope clauses) (.table .header building.entries) ∧
      building.entries.Distinct := by
  induction areStatements generalizing earlier scope entries with
  | nil =>
      exact ⟨⟨scope, entries⟩, rfl, by rwa [definitions, List.append_nil], distinct⟩
  | @cons clause statement clauses statements isStatement _ inductionHypothesis =>
      cases clause with
      | assignment key content =>
          obtain ⟨value, isValue, rfl⟩ := exists_of_map_eq_ok isStatement
          have parts : earlier ++ definitions scope (.assignment key content :: clauses) =
              earlier ++ key.definitions scope content ++ definitions scope clauses := by
            rw [definitions, List.append_assoc]
          rw [parts] at compatible ⊢
          obtain ⟨after, assigned, reflects⟩ := exists_assignIn reflects inScope isValue
            (List.pairwise_append.mp compatible).1
          have added : Building.add ⟨scope, entries⟩ (.assignment key value) =
              .ok ⟨scope, after⟩ := by
            rw [Building.add, assigned]
            rfl
          rw [List.foldlM_cons, added]
          exact inductionHypothesis reflects (Building.distinct_add distinct added)
            (inScope.imp_right (List.mem_append_left _)) compatible
      | header key =>
          obtain rfl : Statement.table key = statement := Except.ok.inj isStatement
          have parts : earlier ++ definitions scope (.header key :: clauses) =
              earlier ++ [.opened key.full] ++ definitions key.full clauses := by
            rw [definitions, List.append_assoc]
            rfl
          rw [parts] at compatible ⊢
          obtain ⟨after, opened, reflects⟩ := exists_openTable reflects fun definition membership =>
            (List.pairwise_append.mp (List.pairwise_append.mp compatible).1).2.2 definition
              membership _ (List.mem_singleton_self _)
          have added : Building.add ⟨scope, entries⟩ (.table key) = .ok ⟨key.full, after⟩ := by
            rw [Building.add, opened]
            rfl
          rw [List.foldlM_cons, added]
          exact inductionHypothesis reflects (Building.distinct_add distinct added)
            (.inr (List.mem_append_right _ (List.mem_singleton_self _))) compatible

theorem exists_statements (legal : Legal clauses) :
    ∃ statements, List.Forall₂ (fun clause statement => clause.toStatement = .ok statement)
      clauses statements := by
  have each : ∀ clause ∈ clauses, ∃ statement, Clause.toStatement clause = .ok statement := by
    intro clause membership
    cases clause with
    | header key => exact ⟨_, rfl⟩
    | assignment key content =>
        cases content with
        | setting setting => exact ⟨_, rfl⟩
        | inlineTable members =>
            obtain ⟨front, defined⟩ := exists_definition membership []
            obtain ⟨entries, built, _⟩ :=
              exists_tableOfMembers (legal.inlineTables _ members defined)
            have isValue : (Content.inlineTable members).toValue = .ok (.table entries.toValues) :=
              built
            exact ⟨_, by rw [Clause.toStatement, isValue]; rfl⟩
  clear legal
  induction clauses with
  | nil => exact ⟨[], .nil⟩
  | cons clause clauses inductionHypothesis =>
      obtain ⟨statement, isStatement⟩ := each clause List.mem_cons_self
      obtain ⟨statements, areStatements⟩ := inductionHypothesis
        fun clause membership => each clause (List.mem_cons_of_mem _ membership)
      exact ⟨statement :: statements, .cons isStatement areStatements⟩

/-! ### What is found -/

theorem Node.exists_of_shape_leaf {node : Node} (found : node.shape? path = some (.leaf value)) :
    node.descend? path = some (.leaf value) := by
  obtain ⟨inner, reached, isLeaf⟩ := Option.map_eq_some_iff.mp found
  cases inner with
  | leaf leaf =>
      cases isLeaf
      exact reached
  | table origin entries => cases isLeaf
  | tables last earlier => cases isLeaf

/-- What is assigned at a place is found there. -/
theorem Reflects.descend?_content (reflects : Reflects all (.table .header entries))
    (distinct : entries.Distinct) (defined : .content place content ∈ all)
    (isValue : content.toValue = .ok value) :
    (Value.table entries.toValues).descend? place = some value := by
  obtain ⟨_, ⟨leaf, isLeaf, rfl⟩, stands⟩ := reflects.stands _ defined
  cases isValue.symm.trans isLeaf
  exact Node.descend?_toValue distinct (Node.exists_of_shape_leaf stands)

/-- What is found at a path lies in what has been assigned there or above, or it is a table that
leads to something. -/
theorem Reflects.exists_of_descend? (reflects : Reflects all (.table .header entries))
    (distinct : entries.Distinct) (nonempty : path ≠ [])
    (found : (Value.table entries.toValues).descend? path = some value) :
    (∃ place content rest leaf, .content place content ∈ all ∧ content.toValue = .ok leaf ∧
        path = place ++ rest ∧ leaf.descend? rest = some value) ∨
      (∃ inner, value = .table inner) ∧ ∃ place, path <+: place ∧
        (.opened place ∈ all ∨ .dotted place ∈ all) := by
  have isNode : (Node.table .header entries).toValue.descend? path = some value := found
  rcases Node.exists_of_descend?_toValue distinct isNode with
    ⟨inner, reached, rfl⟩ | ⟨front, rest, leaf, rfl, _, reached, below⟩
  · have stands : (Node.table .header entries).shape? path = some inner.shape := by
      rw [Node.shape?, reached]
      rfl
    have isTable {origin : Origin} (isShape : inner.shape = .table origin) :
        ∃ entries, inner.toValue = .table entries := by
      obtain ⟨_, rfl⟩ := inner.exists_of_shape_table isShape
      exact ⟨_, rfl⟩
    rcases reflects.shown path _ nonempty stands with
      ⟨definition, defined, rfl, hasShape⟩ | ⟨implied, further, defined, isPrefix⟩
    · cases definition with
      | content place content =>
          obtain ⟨leaf, isValue, isShape⟩ := hasShape
          refine .inl ⟨place, content, [], leaf, defined, isValue, (List.append_nil _).symm, ?_⟩
          cases inner with
          | leaf value =>
              cases isShape
              rfl
          | table origin entries => cases isShape
          | tables last earlier => cases isShape
      | opened place => exact .inr ⟨isTable hasShape, place, List.prefix_rfl, .inl defined⟩
      | dotted place => exact .inr ⟨isTable hasShape, place, List.prefix_rfl, .inr defined⟩
    · exact .inr ⟨isTable implied, further, isPrefix, .inl defined⟩
  · have stands : (Node.table .header entries).shape? front = some (.leaf leaf) := by
      rw [Node.shape?, reached]
      rfl
    have inside : front ≠ [] := by
      rintro rfl
      cases reached
    rcases reflects.shown front _ inside stands with ⟨definition, defined, rfl, hasShape⟩ | implied
    · cases definition with
      | content place content =>
          obtain ⟨_, isValue, isShape⟩ := hasShape
          cases isShape
          exact .inl ⟨place, content, rest, leaf, defined, isValue, rfl, below⟩
      | opened place => cases hasShape
      | dotted place => cases hasShape
    · cases implied.1

theorem content_mem_memberDefinitions (membership : (key, setting) ∈ members) :
    .content key.full (.setting setting) ∈ memberDefinitions members :=
  List.mem_flatMap.mpr ⟨_, membership, mem_definitions_iff.mpr (.inr rfl)⟩

/-- What is defined in an inline table lies on the way to one of its members. -/
theorem exists_of_mem_memberDefinitions {definition : Definition}
    (membership : definition ∈ memberDefinitions members) :
    ∃ member ∈ members, definition = .content member.1.full (.setting member.2) ∨
      ∃ path, definition = .dotted path ∧ path <+: member.1.full := by
  obtain ⟨member, isMember, defined⟩ := List.mem_flatMap.mp membership
  refine ⟨member, isMember, ?_⟩
  rcases mem_definitions_iff.mp defined with ⟨path, isPrefix, _, rfl⟩ | rfl
  · exact .inr ⟨path, rfl, member.1.prefix_full isPrefix⟩
  · exact .inl rfl

theorem setting_mem_settings
    (defined : .content place (.setting setting) ∈ definitions [] clauses) :
    (place, setting) ∈ settings clauses :=
  List.mem_flatMap.mpr ⟨_, defined, List.mem_singleton_self _⟩

theorem member_mem_settings
    (defined : .content place (.inlineTable members) ∈ definitions [] clauses)
    (isMember : (key, setting) ∈ members) : (place ++ key.full, setting) ∈ settings clauses :=
  List.mem_flatMap.mpr ⟨_, defined, List.mem_map.mpr ⟨_, isMember, rfl⟩⟩

theorem mem_settings_or_tables (defined : .content place content ∈ definitions [] clauses) :
    (∃ setting, (place, setting) ∈ settings clauses) ∨ place ∈ tables clauses := by
  cases content with
  | setting value => exact .inl ⟨value, setting_mem_settings defined⟩
  | inlineTable members => exact .inr (List.mem_filterMap.mpr ⟨_, defined, rfl⟩)

theorem Setting.eq_of_descend?_toValue (found : setting.toValue.descend? path = some value) :
    path = [] ∧ value = setting.toValue := by
  cases path with
  | nil => exact ⟨rfl, (Option.some.inj found).symm⟩
  | cons key path => cases setting <;> cases found

/-- What is found below the place of an inline table is one of its members, or a table that leads
to one. -/
theorem exists_of_descend?_inlineTable
    (legal : (memberDefinitions members).Pairwise Definition.Compatible)
    (isValue : (Content.inlineTable members).toValue = .ok leaf) (nonempty : path ≠ [])
    (found : leaf.descend? path = some value) :
    ∃ key setting, (key, setting) ∈ members ∧
      (path = key.full ∧ value = setting.toValue ∨
        (∃ inner, value = .table inner) ∧ path <+: key.full) := by
  obtain ⟨entries, built, reflects, distinct⟩ := exists_tableOfMembers legal
  cases isValue.symm.trans built
  rcases reflects.exists_of_descend? distinct nonempty found with
    ⟨place, content, rest, leaf, defined, isLeaf, rfl, below⟩ |
      ⟨isTable, further, isPrefix, defined⟩
  · obtain ⟨member, isMember, same | ⟨_, impossible, _⟩⟩ := exists_of_mem_memberDefinitions defined
    · cases same
      cases isLeaf
      obtain ⟨rfl, isSetting⟩ := Setting.eq_of_descend?_toValue below
      exact ⟨_, _, isMember, .inl ⟨List.append_nil _, isSetting⟩⟩
    · cases impossible
  · rcases defined with opened | dotted
    · obtain ⟨member, _, impossible | ⟨_, impossible, _⟩⟩ := exists_of_mem_memberDefinitions opened
      · cases impossible
      · cases impossible
    · obtain ⟨member, isMember, impossible | ⟨_, same, leads⟩⟩ :=
        exists_of_mem_memberDefinitions dotted
      · cases impossible
      · cases same
        exact ⟨_, _, isMember, .inr ⟨isTable, isPrefix.trans leads⟩⟩

/-- Each setting of a document is found at its place. -/
theorem Reflects.descend?_setting
    (reflects : Reflects (definitions [] clauses) (.table .header entries))
    (distinct : entries.Distinct) (legal : Legal clauses)
    (membership : (place, setting) ∈ settings clauses) :
    (Value.table entries.toValues).descend? place = some setting.toValue := by
  obtain ⟨definition, defined, isSetting⟩ := List.mem_flatMap.mp membership
  cases definition with
  | opened front => cases isSetting
  | dotted front => cases isSetting
  | content front content =>
      cases content with
      | setting value =>
          cases List.mem_singleton.mp isSetting
          exact reflects.descend?_content distinct defined rfl
      | inlineTable members =>
          obtain ⟨member, isMember, same⟩ := List.mem_map.mp isSetting
          cases same
          obtain ⟨inner, built, insideReflects, insideDistinct⟩ :=
            exists_tableOfMembers (legal.inlineTables front members defined)
          rw [Value.descend?_append, reflects.descend?_content distinct defined built]
          exact insideReflects.descend?_content insideDistinct
            (content_mem_memberDefinitions isMember) rfl

/-- What is found in a table that reflects the definitions of a document. -/
theorem denotes (reflects : Reflects (definitions [] clauses) (.table .header entries))
    (distinct : entries.Distinct) (legal : Legal clauses) : Denotes clauses entries.toValues where
  found _ _ membership := reflects.descend?_setting distinct legal membership
  only place value nonempty isFound := by
    rcases reflects.exists_of_descend? distinct nonempty isFound with
      ⟨front, content, rest, leaf, defined, isValue, rfl, below⟩ |
        ⟨isTable, further, isPrefix, defined⟩
    · cases content with
      | setting setting =>
          cases isValue
          obtain ⟨rfl, isSetting⟩ := Setting.eq_of_descend?_toValue below
          rw [List.append_nil]
          exact .inl ⟨setting, setting_mem_settings defined, isSetting⟩
      | inlineTable members =>
          have legalMembers := legal.inlineTables front members defined
          by_cases isNil : rest = []
          · subst isNil
            obtain ⟨inner, built, _⟩ := exists_tableOfMembers legalMembers
            cases isValue.symm.trans built
            cases below
            rw [List.append_nil]
            exact .inr ⟨⟨_, rfl⟩, front, List.prefix_rfl, mem_settings_or_tables defined⟩
          · obtain ⟨key, setting, isMember, ⟨rfl, isSetting⟩ | ⟨isTable, leads⟩⟩ :=
              exists_of_descend?_inlineTable legalMembers isValue isNil below
            · exact .inl ⟨setting, member_mem_settings defined isMember, isSetting⟩
            · exact .inr ⟨isTable, front ++ key.full,
                (List.prefix_append_right_inj front).mpr leads,
                .inl ⟨setting, member_mem_settings defined isMember⟩⟩
    · rcases defined with opened | dotted
      · exact .inr ⟨isTable, further, isPrefix, .inr (List.mem_filterMap.mpr ⟨_, opened, rfl⟩)⟩
      · obtain ⟨last, content, defined, leads⟩ := exists_content_of_dotted dotted
        exact .inr ⟨isTable, last, isPrefix.trans leads, mem_settings_or_tables defined⟩

/-! ### Documents -/

/-- No key is too long where nothing stands too deep. -/
theorem fits_of_length_le
    (settingsFit : ∀ place setting, (place, setting) ∈ settings clauses →
      place.length ≤ depthLimit)
    (tablesFit : ∀ place ∈ tables clauses, place.length ≤ depthLimit) :
    ∀ clause ∈ clauses, clause.Fits := by
  have shorter {front : List String} {key : Key} (bound : (front ++ key.full).length ≤ depthLimit) :
      key.path.length < depthLimit := by
    rw [List.length_append, Key.full, List.length_append, List.length_singleton] at bound
    omega
  intro clause membership
  cases clause with
  | header key =>
      have opened := opened_mem_definitions membership []
      have bound := tablesFit key.full (List.mem_filterMap.mpr ⟨_, opened, rfl⟩)
      exact @shorter [] key bound
  | assignment key content =>
      obtain ⟨front, defined⟩ := exists_definition membership []
      cases content with
      | setting value => exact ⟨shorter (settingsFit _ _ (setting_mem_settings defined)), trivial⟩
      | inlineTable members =>
          have opened : front ++ key.full ∈ tables clauses :=
            List.mem_filterMap.mpr ⟨_, defined, rfl⟩
          exact ⟨shorter (tablesFit _ opened), fun member isMember =>
            shorter (settingsFit _ _ (member_mem_settings defined isMember))⟩

/-- A legal document is read, and what it denotes is found in what has been read. -/
theorem read_document {text : String} (written : DocumentWritten clauses text.toList)
    (legal : Legal clauses) (fits : ∀ clause ∈ clauses, clause.Fits) :
    ∃ document, read text = .ok document ∧ Denotes clauses document := by
  obtain ⟨statements, areStatements⟩ := exists_statements legal
  obtain ⟨building, built, reflects, distinct⟩ :=
    exists_building reflects_nil Entries.distinct_nil (.inl rfl) legal.document areStatements
  have enough : clauses.length < text.toList.length + 1 :=
    Nat.lt_succ_of_le (length_le_of_documentWritten written)
  have statementsRead := readStatements_written written fits areStatements enough
  refine ⟨building.entries.toValues, ?_, denotes reflects distinct legal⟩
  have noMark : ∀ rest, text.toList ≠ '\ufeff' :: rest := fun rest marked =>
    head?_ne_of_documentWritten written (congrArg List.head? marked)
  rw [read]
  split
  · next marked => exact absurd marked (noMark _)
  · rw [statementsRead]
    simp only [bind, Except.bind, built]
    rfl

end Tokenizer.Toml
