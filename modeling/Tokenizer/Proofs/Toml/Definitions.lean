import Tokenizer.Proofs.Toml.Tables
import Tokenizer.Proofs.Toml.Value

/-!
Tables under construction show what has been defined so far.

The invariant says why anything stands at its place: it has been defined there, or the header of a
table in it has made it. A statement whose definitions are compatible with all earlier ones
succeeds and keeps the invariant.
-/

namespace Tokenizer.Toml

/-! ### The invariant -/

/-- What is seen of a definition at its place. -/
def Definition.HasShape : Definition → Shape → Prop
  | .content _ assigned, shape => ∃ value, assigned.toValue = .ok value ∧ shape = .leaf value
  | .opened _, shape => shape = .table .header
  | .dotted _, shape => shape = .table .dotted

/-- Why something stands at a place. -/
def Shows (definitions : List Definition) (place : List String) (shape : Shape) : Prop :=
  (∃ definition ∈ definitions, definition.place = place ∧ definition.HasShape shape) ∨
    (shape = .table .implied ∧ ∃ further, .opened further ∈ definitions ∧ place <+: further)

structure Reflects (definitions : List Definition) (root : Node) : Prop where
  shown : ∀ place shape, place ≠ [] → root.shape? place = some shape →
    Shows definitions place shape
  stands : ∀ definition ∈ definitions, ∃ shape, definition.HasShape shape ∧
    root.shape? definition.place = some shape

variable {earlier later : List Definition} {old new : Node} {place path : List String}
  {made : Origin} {shape : Shape} {content : Content} {value : Value} {key : Key}
  {scope : List String} {entries : Entries}

theorem reflects_nil : Reflects [] (.table .header []) where
  shown place shape nonempty isShape := by
    rw [Node.shape?_empty_of_ne nonempty] at isShape
    cases isShape
  stands _ membership := by cases membership

theorem Shows.mono {all : List Definition} (shows : Shows earlier path shape)
    (subset : earlier ⊆ all) : Shows all path shape := by
  rcases shows with ⟨definition, membership, facts⟩ | ⟨implied, further, membership, isPrefix⟩
  · exact .inl ⟨definition, subset membership, facts⟩
  · exact .inr ⟨implied, further, subset membership, isPrefix⟩

theorem Reflects.extend (reflects : Reflects earlier old)
    (extends_ : Node.Extends place made shape old new)
    (fresh : ∀ definition ∈ earlier, definition.place ≠ place) (shows : Shows later place shape)
    (way : ∀ path, path <+: place → path ≠ place → path ≠ [] → old.shape? path = none →
      Shows later path (.table made))
    (stands : ∀ definition ∈ later, ∃ shape, definition.HasShape shape ∧
      new.shape? definition.place = some shape) :
    Reflects (earlier ++ later) new where
  shown path found nonempty isFound := by
    have fromLater {found : Shape} (shows : Shows later path found) :
        Shows (earlier ++ later) path found := shows.mono (List.subset_append_right _ _)
    have fromEarlier (isFound : old.shape? path = some found) :
        Shows (earlier ++ later) path found :=
      (reflects.shown path found nonempty isFound).mono (List.subset_append_left _ _)
    by_cases isPlace : path = place
    · subst isPlace
      rw [extends_.here] at isFound
      cases isFound
      exact fromLater shows
    · by_cases isPrefix : path <+: place
      · rw [extends_.way path isPrefix isPlace] at isFound
        cases before : old.shape? path with
        | none =>
            rw [before] at isFound
            cases isFound
            exact fromLater (way path isPrefix isPlace nonempty before)
        | some stood =>
            rw [before] at isFound
            cases isFound
            exact fromEarlier before
      · exact fromEarlier ((extends_.others path isPrefix).symm.trans isFound)
  stands definition membership := by
    rcases List.mem_append.mp membership with isEarlier | isLater
    · obtain ⟨stood, hasShape, before⟩ := reflects.stands definition isEarlier
      refine ⟨stood, hasShape, ?_⟩
      by_cases isPrefix : definition.place <+: place
      · rw [extends_.way _ isPrefix (fresh definition isEarlier), before]
        rfl
      · rw [extends_.others _ isPrefix, before]
    · exact stands definition isLater

/-- Only a table stands on the way to a place that lies in no setting and no inline table. -/
theorem Shows.exists_table (shows : Shows earlier path shape) (isPrefix : path <+: place)
    (free : ∀ front content, .content front content ∈ earlier → ¬front <+: place) :
    ∃ between, shape = .table between := by
  rcases shows with ⟨definition, membership, rfl, hasShape⟩ | ⟨rfl, _⟩
  · cases definition with
    | content front content => exact absurd isPrefix (free front content membership)
    | opened front => exact ⟨_, hasShape⟩
    | dotted front => exact ⟨_, hasShape⟩
  · exact ⟨_, rfl⟩

/-! ### Assignments -/

theorem mem_tail_inits {path whole : List String} :
    path ∈ whole.inits.tail ↔ path <+: whole ∧ path ≠ [] := by
  rw [← List.mem_inits]
  cases whole with
  | nil => simp
  | cons key whole =>
      rw [List.inits_cons, List.tail_cons, List.mem_cons]
      constructor
      · intro membership
        obtain ⟨_, _, rfl⟩ := List.mem_map.mp membership
        exact ⟨.inr membership, List.cons_ne_nil _ _⟩
      · rintro ⟨isNil | membership, nonempty⟩
        · exact absurd isNil nonempty
        · exact membership

theorem mem_definitions_iff {definition : Definition} :
    definition ∈ key.definitions scope content ↔
      (∃ path, path <+: key.path ∧ path ≠ [] ∧ definition = .dotted (scope ++ path)) ∨
        definition = .content (scope ++ key.full) content := by
  rw [Key.definitions, List.mem_append, List.mem_map, List.mem_singleton]
  simp only [mem_tail_inits, and_assoc, eq_comm]

/-- What may be assigned to a key stands at a free place, behind tables without a header. -/
structure Assignable (earlier : List Definition) (scope : List String) (key : Key) : Prop where
  content : ∀ front content, .content front content ∈ earlier →
    ¬front <+: scope ++ key.full
  fresh : ∀ definition ∈ earlier, ¬scope ++ key.full <+: definition.place
  dotted : ∀ path, path <+: key.path → path ≠ [] → ∀ header, .opened header ∈ earlier →
    ¬scope ++ path <+: header

theorem assignable (compatible : ∀ first ∈ earlier, ∀ second ∈ key.definitions scope content,
    first.Compatible second) : Assignable earlier scope key where
  content front inner membership :=
    (compatible _ membership _ (mem_definitions_iff.mpr (.inr rfl))).1
  fresh definition membership := by
    have compatible := compatible definition membership _ (mem_definitions_iff.mpr (.inr rfl))
    cases definition with
    | content front inner => exact compatible.2
    | opened front => exact compatible
    | dotted front => exact compatible
  dotted path isPrefix nonempty header membership :=
    compatible _ membership _ (mem_definitions_iff.mpr (.inl ⟨path, isPrefix, nonempty, rfl⟩))

theorem Key.prefix_full (key : Key) {path : List String} (isPrefix : path <+: key.path) :
    path <+: key.full :=
  isPrefix.trans (List.prefix_append _ _)

namespace Assignable

variable (assignable : Assignable earlier scope key) (reflects : Reflects earlier old)

include assignable reflects

theorem shape?_full : old.shape? (scope ++ key.full) = none := by
  cases found : old.shape? (scope ++ key.full) with
  | none => rfl
  | some shape =>
      have nonempty : scope ++ key.full ≠ [] := by simp [Key.full]
      rcases reflects.shown _ _ nonempty found with
        ⟨definition, membership, isPlace, _⟩ | ⟨_, further, membership, isPrefix⟩
      · exact absurd (isPlace ▸ List.prefix_rfl) (assignable.fresh definition membership)
      · exact absurd isPrefix (assignable.fresh _ membership)

/-- Only tables that dotted keys have made stand in the way. -/
theorem shape?_path (isPrefix : path <+: key.path) (nonempty : path ≠ [])
    (found : old.shape? (scope ++ path) = some shape) : shape = .table .dotted := by
  have isFront : scope ++ path <+: scope ++ key.full :=
    List.prefix_append_right_inj _ |>.mpr (key.prefix_full isPrefix)
  rcases reflects.shown _ _ (List.append_ne_nil_of_right_ne_nil _ nonempty) found with
    ⟨definition, membership, isPlace, hasShape⟩ | ⟨_, further, membership, implied⟩
  · cases definition with
    | content front inner =>
        obtain rfl : front = scope ++ path := isPlace
        exact absurd isFront (assignable.content _ inner membership)
    | opened header =>
        obtain rfl : header = scope ++ path := isPlace
        exact absurd List.prefix_rfl (assignable.dotted path isPrefix nonempty _ membership)
    | dotted front => exact hasShape
  · exact absurd implied (assignable.dotted path isPrefix nonempty further membership)

end Assignable

/-- A value is put into a table at the end of a dotted path. -/
theorem exists_assign (value : Value)
    (meets : ∀ front shape, front <+: key.path → front ≠ [] →
      (Node.table .header entries).shape? front = some shape → shape = .table .dotted)
    (free : (Node.table .header entries).shape? key.full = none) :
    ∃ after, entries.assign key.path key.name value .header = .ok after ∧
      Node.Extends key.full .dotted (.leaf value) (.table .header entries)
        (.table .header after) := by
  obtain ⟨last, inner, leads, isLast, below⟩ :=
    @Entries.exists_leads true key.path .dotted .header entries (fun _ => rfl)
      fun front shape isPrefix nonempty found =>
        ⟨.dotted, meets front shape isPrefix nonempty found, fun _ => by decide⟩
  have allowed : ((last == .dotted) == key.path.isEmpty) = false := by
    cases isPath : key.path with
    | nil =>
        rw [isPath] at isLast
        cases isLast
        rfl
    | cons first path =>
        have nonempty : key.path ≠ [] := by simp [isPath]
        cases found : (Node.table .header entries).shape? key.path with
        | none =>
            rw [found] at isLast
            cases isLast
            rfl
        | some shape =>
            rw [found, meets key.path shape List.prefix_rfl nonempty found] at isLast
            cases isLast
            rfl
  have missing : Entries.find? key.name inner = none := by
    have found := (below [key.name] (List.cons_ne_nil _ _)).trans free
    rw [Node.shape?_cons] at found
    cases stands : Entries.find? key.name inner with
    | none => rfl
    | some node =>
        rw [stands] at found
        cases found
  have inside : Node.Extends [] .dotted (.leaf value)
      ((Entries.find? key.name inner).getD (.table .dotted [])) (.leaf value) := by
    rw [missing]
    refine Node.extends_nil .dotted rfl fun path nonempty => ?_
    rw [Node.shape?_leaf_of_ne nonempty]
    exact (Node.shape?_empty_of_ne nonempty).symm
  refine leads.exists_update ?_ (inside.cons (Entries.find?_cons_self ..)
    (fun other different => Entries.find?_cons_of_ne different ..) last)
  simp only [allowed, missing]
  rfl

theorem Reflects.shape?_scope (reflects : Reflects earlier (.table .header entries))
    (inScope : scope = [] ∨ .opened scope ∈ earlier) :
    (Node.table .header entries).shape? scope = some (.table .header) := by
  rcases inScope with rfl | isOpened
  · rfl
  · obtain ⟨_, rfl, stands⟩ := reflects.stands _ isOpened
    exact stands

/-- An assignment puts its value at its place. -/
theorem exists_extends_assignIn (reflects : Reflects earlier (.table .header entries))
    (inScope : scope = [] ∨ .opened scope ∈ earlier) (assignable : Assignable earlier scope key)
    (value : Value) :
    ∃ after, entries.assignIn scope key.path key.name value = .ok after ∧
      Node.Extends (scope ++ key.full) .dotted (.leaf value) (.table .header entries)
        (.table .header after) := by
  have isHeader := reflects.shape?_scope inScope
  obtain ⟨last, inner, leads, isLast, below⟩ :=
    @Entries.exists_leads false scope .dotted .header entries
      (fun missing => by rw [isHeader] at missing; cases missing)
      fun front shape isPrefix nonempty found => by
        obtain ⟨between, isTable⟩ := (reflects.shown front shape nonempty found).exists_table
          (isPrefix.trans (List.prefix_append scope key.full)) assignable.content
        exact ⟨between, isTable, fun isDotted => by cases isDotted⟩
  rw [isHeader] at isLast
  cases isLast
  obtain ⟨changed, assigned, inside⟩ := @exists_assign key inner value
    (fun front shape isPrefix nonempty found =>
      assignable.shape?_path reflects isPrefix nonempty (by rwa [← below front nonempty]))
    (by rw [below _ (by simp [Key.full])]; exact assignable.shape?_full reflects)
  exact leads.exists_update assigned inside

/-- Behind the table of the last header, the tables on the way are those of the dotted key. -/
theorem exists_of_prefix_full (isPrefix : path <+: scope ++ key.full)
    (different : path ≠ scope ++ key.full) (behind : ¬path <+: scope) :
    ∃ front, front <+: key.path ∧ front ≠ [] ∧ path = scope ++ front := by
  rcases List.prefix_or_prefix_of_prefix isPrefix (List.prefix_append scope key.full) with
    before | ⟨front, rfl⟩
  · exact absurd before behind
  · refine ⟨front, ?_, fun isNil => behind (by rw [isNil, List.append_nil]), rfl⟩
    rcases List.prefix_concat_iff.mp ((List.prefix_append_right_inj scope).mp isPrefix) with
      same | isPrefix
    · exact absurd (congrArg (scope ++ ·) same) different
    · exact isPrefix

theorem Reflects.assign (reflects : Reflects earlier (.table .header entries))
    (inScope : scope = [] ∨ .opened scope ∈ earlier) (assignable : Assignable earlier scope key)
    (isValue : content.toValue = .ok value)
    (extends_ : Node.Extends (scope ++ key.full) .dotted (.leaf value) (.table .header entries)
      new) :
    Reflects (earlier ++ key.definitions scope content) new := by
  have present {path : List String} (isPrefix : path <+: scope) :
      (Node.table .header entries).shape? path ≠ none :=
    Node.shape?_ne_none_of_prefix (reflects.shape?_scope inScope) isPrefix
  refine reflects.extend extends_ ?_ ?_ ?_ ?_
  · intro definition membership same
    exact assignable.fresh definition membership (same ▸ List.prefix_rfl)
  · exact .inl ⟨_, mem_definitions_iff.mpr (.inr rfl), rfl, value, isValue, rfl⟩
  · intro path isPrefix different _ missing
    obtain ⟨front, isFront, nonempty, rfl⟩ :=
      exists_of_prefix_full isPrefix different fun before => present before missing
    exact .inl ⟨_, mem_definitions_iff.mpr (.inl ⟨front, isFront, nonempty, rfl⟩), rfl, rfl⟩
  · intro definition membership
    rcases mem_definitions_iff.mp membership with ⟨front, isFront, nonempty, rfl⟩ | rfl
    · refine ⟨_, rfl, ?_⟩
      have isPrefix : scope ++ front <+: scope ++ key.full :=
        (List.prefix_append_right_inj scope).mpr (key.prefix_full isFront)
      have shorter : scope ++ front ≠ scope ++ key.full := by
        intro same
        have lengths := congrArg List.length (List.append_cancel_left same)
        have bound := isFront.length_le
        rw [Key.full, List.length_append, List.length_singleton] at lengths
        omega
      have step := extends_.way _ isPrefix shorter
      cases found : (Node.table .header entries).shape? (scope ++ front) with
      | none => rwa [found] at step
      | some stood =>
          rw [found, assignable.shape?_path reflects isFront nonempty found] at step
          exact step
    · exact ⟨_, ⟨value, isValue, rfl⟩, extends_.here⟩

theorem exists_assignIn (reflects : Reflects earlier (.table .header entries))
    (inScope : scope = [] ∨ .opened scope ∈ earlier) (isValue : content.toValue = .ok value)
    (compatible : (earlier ++ key.definitions scope content).Pairwise Definition.Compatible) :
    ∃ after, entries.assignIn scope key.path key.name value = .ok after ∧
      Reflects (earlier ++ key.definitions scope content) (.table .header after) := by
  have assignable := assignable (List.pairwise_append.mp compatible).2.2
  obtain ⟨after, assigned, extends_⟩ :=
    exists_extends_assignIn reflects inScope assignable value
  exact ⟨after, assigned, reflects.assign inScope assignable isValue extends_⟩

/-! ### Inline tables -/

theorem exists_assignMembers {members : List (Key × Setting)}
    (reflects : Reflects earlier (.table .header entries)) (distinct : entries.Distinct)
    (compatible : (earlier ++ memberDefinitions members).Pairwise Definition.Compatible) :
    ∃ after, (memberValues members).foldlM
        (fun (entries : Entries) (member : Key × Value) =>
          entries.assign member.1.path member.1.name member.2 .header) entries = .ok after ∧
      Reflects (earlier ++ memberDefinitions members) (.table .header after) ∧
      after.Distinct := by
  induction members generalizing earlier entries with
  | nil => exact ⟨entries, rfl, by rwa [memberDefinitions, List.flatMap_nil, List.append_nil],
      distinct⟩
  | cons member members inductionHypothesis =>
      obtain ⟨key, setting⟩ := member
      have parts : earlier ++ memberDefinitions ((key, setting) :: members) =
          earlier ++ key.definitions [] (.setting setting) ++ memberDefinitions members := by
        simp [memberDefinitions]
      rw [parts] at compatible ⊢
      obtain ⟨next, assigned, reflects⟩ := exists_assignIn reflects (.inl rfl) rfl
        (List.pairwise_append.mp compatible).1
      have assigned : entries.assign key.path key.name setting.toValue .header = .ok next :=
        assigned
      obtain ⟨after, further, facts⟩ :=
        inductionHypothesis reflects (distinct.assign assigned) compatible
      refine ⟨after, ?_, facts⟩
      rw [memberValues, List.map_cons, List.foldlM_cons, assigned]
      exact further

/-- The table of members that are compatible with each other. -/
theorem exists_tableOfMembers {members : List (Key × Setting)}
    (compatible : (memberDefinitions members).Pairwise Definition.Compatible) :
    ∃ entries : Entries, tableOfMembers (memberValues members) = .ok (.table entries.toValues) ∧
      Reflects (memberDefinitions members) (.table .header entries) ∧ entries.Distinct := by
  obtain ⟨entries, assigned, facts⟩ :=
    exists_assignMembers reflects_nil Entries.distinct_nil compatible
  refine ⟨entries, ?_, facts⟩
  rw [tableOfMembers, assigned]
  rfl

/-! ### Headers -/

/-- A table may be opened where nothing stands, or where the header of a table in it has made it. -/
theorem exists_open {last : Origin} {inner : Entries} (name : String)
    (possible : ∀ shape, (Node.table last inner).shape? [name] = some shape →
      shape = .table .implied) :
    ∃ after,
      (match Entries.find? name inner with
        | none => return (name, .table .header []) :: inner
        | some (.table .implied next) => return inner.replace name (.table .header next)
        | some _ => throw (.duplicate name)) = (Except.ok after : Except Problem Entries) ∧
      Node.Extends [name] .implied (.table .header) (.table last inner) (.table last after) := by
  rw [Node.shape?_cons] at possible
  cases found : Entries.find? name inner with
  | none =>
      have inside : Node.Extends [] .implied (.table .header)
          ((Entries.find? name inner).getD (.table .implied [])) (.table .header []) := by
        rw [found]
        refine Node.extends_nil .implied rfl fun path nonempty => ?_
        rw [Node.shape?_empty_of_ne nonempty]
        exact (Node.shape?_empty_of_ne nonempty).symm
      exact ⟨_, rfl, inside.cons (Entries.find?_cons_self ..)
        (fun other different => Entries.find?_cons_of_ne different ..) last⟩
  | some node =>
      rw [found] at possible
      obtain ⟨next, rfl⟩ := node.exists_of_shape_table (possible _ rfl)
      have inside : Node.Extends [] .implied (.table .header)
          ((Entries.find? name inner).getD (.table .implied [])) (.table .header next) := by
        rw [found]
        refine Node.extends_nil .implied rfl fun path nonempty => ?_
        cases path with
        | nil => exact absurd rfl nonempty
        | cons key path => rfl
      exact ⟨_, rfl, inside.cons (Entries.find?_replace_self found _)
        (fun other different => Entries.find?_replace_of_ne different ..) last⟩

/-- A header opens its table. -/
theorem exists_openTable (reflects : Reflects earlier (.table .header entries))
    (compatible : ∀ definition ∈ earlier, definition.Compatible (.opened key.full)) :
    ∃ after, entries.openTable key.path key.name = .ok after ∧
      Reflects (earlier ++ [.opened key.full]) (.table .header after) := by
  have free : ∀ front content, .content front content ∈ earlier → ¬front <+: key.full :=
    fun front content membership => compatible _ membership
  have fresh : ∀ definition ∈ earlier, definition.place ≠ key.full := by
    intro definition membership same
    have compatible := compatible definition membership
    cases definition with
    | content front content => exact compatible (same ▸ List.prefix_rfl)
    | opened front => exact compatible same
    | dotted front => exact compatible same
  obtain ⟨last, inner, leads, _, below⟩ :=
    @Entries.exists_leads false key.path .implied .header entries (fun _ => rfl)
      fun front shape isPrefix nonempty found => by
        obtain ⟨between, isTable⟩ := (reflects.shown front shape nonempty found).exists_table
          (key.prefix_full isPrefix) free
        exact ⟨between, isTable, fun isDotted => by cases isDotted⟩
  have possible : ∀ shape, (Node.table last inner).shape? [key.name] = some shape →
      shape = .table .implied := by
    intro shape found
    rw [below _ (List.cons_ne_nil _ _)] at found
    rcases reflects.shown _ _ (by simp) found with ⟨definition, membership, same, _⟩ | ⟨implied, _⟩
    · exact absurd same (fresh definition membership)
    · exact implied
  obtain ⟨changed, opens, inside⟩ := exists_open key.name possible
  obtain ⟨after, updated, extends_⟩ :
      ∃ after, entries.openTable key.path key.name = .ok after ∧ _ :=
    leads.exists_update opens inside
  refine ⟨after, updated, reflects.extend extends_ fresh ?_ ?_ ?_⟩
  · exact .inl ⟨_, List.mem_singleton_self _, rfl, rfl⟩
  · intro path isPrefix _ _ _
    exact .inr ⟨rfl, key.full, List.mem_singleton_self _, isPrefix⟩
  · intro definition membership
    rw [List.mem_singleton.mp membership]
    exact ⟨_, rfl, extends_.here⟩

end Tokenizer.Toml
