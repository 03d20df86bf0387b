import Mathlib.Data.List.Nodup
import Tokenizer.Proofs.Toml.Building
import Tokenizer.Proofs.Toml.Meaning
import Tokenizer.Toml.Reader

/-!
Tables that have been built, as values.

The keys of a table are distinct, whatever statements have built it. So what is found under a key
does not depend on the order of the entries, and a value holds at each path what has been put
there.
-/

namespace Tokenizer.Toml

variable {path : List String} {key : String} {origin : Origin} {entries after : Entries}
  {node : Node} {value : Value}

theorem exists_of_bind_eq_ok {Item Other : Type} {outcome : Except Problem Item}
    {next : Item → Except Problem Other} {result : Other} (bound : outcome >>= next = .ok result) :
    ∃ item, outcome = .ok item ∧ next item = .ok result := by
  cases outcome with
  | error problem => cases bound
  | ok item => exact ⟨item, rfl, bound⟩

/-! ### Distinct keys -/

/-- No key stands twice in a table, nor in a table inside it. -/
inductive Node.Distinct : Node → Prop where
  | leaf {value : Value} : Distinct (.leaf value)
  | table {origin : Origin} {entries : List (String × Node)} :
      (entries.map Prod.fst).Nodup → (∀ entry ∈ entries, Distinct entry.2) →
      Distinct (.table origin entries)
  | tables {last : List (String × Node)} {earlier : List (List (String × Node))} :
      Distinct (.table .header last) → (∀ entries ∈ earlier, Distinct (.table .header entries)) →
      Distinct (.tables last earlier)

namespace Entries

def Distinct (entries : Entries) : Prop :=
  (Node.table .header entries).Distinct

theorem distinct_of_node (distinct : (Node.table origin entries).Distinct) : Distinct entries := by
  cases distinct with
  | table keys inner => exact .table keys inner

theorem Distinct.toNode (distinct : Distinct entries) (origin : Origin) :
    (Node.table origin entries).Distinct := by
  cases distinct with
  | table keys inner => exact .table keys inner

theorem distinct_nil : Distinct [] :=
  .table List.nodup_nil fun _ membership => by cases membership

theorem mem_of_find? (found : entries.find? key = some node) : (key, node) ∈ entries := by
  obtain ⟨_, _, rfl, _⟩ := List.lookup_eq_some_iff.mp found
  exact List.mem_append_right _ List.mem_cons_self

theorem Distinct.of_find? (distinct : Distinct entries) (found : entries.find? key = some node) :
    node.Distinct := by
  cases distinct with
  | table _ inner => exact inner (key, node) (mem_of_find? found)

theorem Distinct.cons (distinct : Distinct entries) (missing : entries.find? key = none)
    (isDistinct : node.Distinct) : Distinct ((key, node) :: entries) := by
  cases distinct with
  | table keys inner =>
      have fresh : key ∉ entries.map Prod.fst := by
        intro membership
        obtain ⟨entry, isEntry, rfl⟩ := List.mem_map.mp membership
        simpa using List.lookup_eq_none_iff.mp missing entry isEntry
      refine .table (List.nodup_cons.mpr ⟨fresh, keys⟩) fun entry membership => ?_
      rcases List.mem_cons.mp membership with rfl | isEntry
      · exact isDistinct
      · exact inner entry isEntry

theorem map_fst_replace (key : String) (node : Node) (entries : Entries) :
    (entries.replace key node).map Prod.fst = entries.map Prod.fst := by
  rw [replace, List.map_map]
  refine List.map_congr_left fun entry _ => ?_
  by_cases same : entry.1 = key
  · simp [same]
  · simp [same]

theorem Distinct.replace (distinct : Distinct entries) (isDistinct : node.Distinct)
    (key : String) : Distinct (entries.replace key node) := by
  cases distinct with
  | table keys inner =>
      refine .table (by rwa [map_fst_replace]) fun entry membership => ?_
      obtain ⟨old, isEntry, rfl⟩ := List.mem_map.mp membership
      split
      · exact isDistinct
      · exact inner old isEntry

/-- Changing a table keeps the keys distinct in all tables around it. -/
theorem Distinct.update {dotted : Bool} {change : Origin → Entries → Except Problem Entries}
    (distinct : Distinct entries)
    (keeps : ∀ {origin entries after}, Distinct entries → change origin entries = .ok after →
      Distinct after)
    (updated : entries.update dotted change path origin = .ok after) : Distinct after := by
  induction path generalizing origin entries after with
  | nil => exact keeps distinct updated
  | cons key path inductionHypothesis =>
      rw [Entries.update] at updated
      cases found : entries.find? key with
      | none =>
          simp only [found] at updated
          obtain ⟨inner, inside, isAfter⟩ := exists_of_bind_eq_ok updated
          cases isAfter
          exact distinct.cons found ((inductionHypothesis distinct_nil inside).toNode _)
      | some node =>
          have isDistinct := distinct.of_find? found
          cases node with
          | leaf value =>
              simp only [found] at updated
              cases updated
          | table between next =>
              simp only [found] at updated
              split at updated
              · cases updated
              · obtain ⟨inner, inside, isAfter⟩ := exists_of_bind_eq_ok updated
                cases isAfter
                have changed := inductionHypothesis (distinct_of_node isDistinct) inside
                exact distinct.replace (changed.toNode _) key
          | tables last earlier =>
              simp only [found] at updated
              obtain ⟨inner, inside, isAfter⟩ := exists_of_bind_eq_ok updated
              cases isAfter
              cases isDistinct with
              | tables isLast isEarlier =>
                  have changed := inductionHypothesis isLast inside
                  exact distinct.replace (.tables changed isEarlier) key

theorem Distinct.assign {value : Value} {name : String} (distinct : Distinct entries)
    (assigned : entries.assign path name value origin = .ok after) : Distinct after := by
  refine distinct.update (fun {_ inner _} distinct changed => ?_) assigned
  split at changed
  · cases changed
  · cases found : inner.find? name with
    | some node =>
        rw [found] at changed
        cases changed
    | none =>
        rw [found] at changed
        cases changed
        exact distinct.cons found .leaf

theorem Distinct.openTable {name : String} (distinct : Distinct entries)
    (opened : entries.openTable path name = .ok after) : Distinct after := by
  refine distinct.update (fun {_ inner _} distinct changed => ?_) opened
  split at changed
  · next found =>
      cases changed
      exact distinct.cons found (distinct_nil.toNode _)
  · next next found =>
      cases changed
      exact distinct.replace ((distinct_of_node (distinct.of_find? found)).toNode _) name
  · cases changed

theorem Distinct.openElement {name : String} (distinct : Distinct entries)
    (opened : entries.openElement path name = .ok after) : Distinct after := by
  refine distinct.update (fun {_ inner _} distinct changed => ?_) opened
  split at changed
  · next found =>
      cases changed
      exact distinct.cons found (.tables distinct_nil fun _ membership => by cases membership)
  · next last earlier found =>
      cases changed
      cases distinct.of_find? found with
      | tables isLast isEarlier =>
          exact distinct.replace (.tables distinct_nil (List.forall_mem_cons.mpr
            ⟨isLast, isEarlier⟩)) name
  · cases changed

end Entries

/-- Whatever statements a document has, no key stands twice in a table that they build. -/
theorem Building.distinct_add {building after : Building} {statement : Statement}
    (distinct : building.entries.Distinct) (added : building.add statement = .ok after) :
    after.entries.Distinct := by
  cases statement with
  | assignment key value =>
      cases inside : building.entries.assignIn building.scope key.path key.name value with
      | error problem =>
          rw [add, inside] at added
          cases added
      | ok entries =>
          rw [add, inside] at added
          cases added
          exact distinct.update (fun distinct assigned => distinct.assign assigned) inside
  | table key =>
      cases inside : building.entries.openTable key.path key.name with
      | error problem =>
          rw [add, inside] at added
          cases added
      | ok entries =>
          rw [add, inside] at added
          cases added
          exact distinct.openTable inside
  | element key =>
      cases inside : building.entries.openElement key.path key.name with
      | error problem =>
          rw [add, inside] at added
          cases added
      | ok entries =>
          rw [add, inside] at added
          cases added
          exact distinct.openElement inside

/-! ### Tables as values -/

theorem lookup_map_snd {Item Other : Type} (change : Item → Other) (entries : List (String × Item))
    (text : String) :
    (entries.map fun entry => (entry.1, change entry.2)).lookup text =
      (entries.lookup text).map change := by
  induction entries with
  | nil => rfl
  | cons entry entries inductionHypothesis =>
      rw [List.map_cons, List.lookup_cons, List.lookup_cons]
      cases text == entry.1
      · exact inductionHypothesis
      · rfl

/-- With distinct keys the order of the entries makes no difference. -/
theorem lookup_reverse {Item : Type} {entries : List (String × Item)}
    (distinct : (entries.map Prod.fst).Nodup) (text : String) :
    entries.reverse.lookup text = entries.lookup text := by
  induction entries with
  | nil => rfl
  | cons entry entries inductionHypothesis =>
      obtain ⟨fresh, distinct⟩ := List.nodup_cons.mp distinct
      rw [List.reverse_cons, List.lookup_append, inductionHypothesis distinct]
      by_cases same : text = entry.1
      · have missing : entries.lookup text = none := by
          refine List.lookup_eq_none_iff.mpr fun other membership => bne_iff_ne.mpr fun equal => ?_
          exact fresh (same ▸ equal ▸ List.mem_map_of_mem membership)
        rw [missing, Option.none_or, List.lookup_cons, List.lookup_cons, same, beq_self_eq_true]
      · have different : (text == entry.1) = false := beq_eq_false_iff_ne.mpr same
        rw [List.lookup_cons, List.lookup_cons, different]
        exact Option.or_none

theorem Node.toValues_eq_map (entries : Entries) :
    Node.toValues entries = entries.map fun entry => (entry.1, entry.2.toValue) := by
  induction entries with
  | nil => rfl
  | cons entry entries inductionHypothesis =>
      rw [Node.toValues, inductionHypothesis]
      rfl

/-- A table has under a key what has been built there. -/
theorem Entries.lookup_toValues (distinct : entries.Distinct) (key : String) :
    entries.toValues.lookup key = (entries.find? key).map Node.toValue := by
  cases distinct with
  | table keys _ =>
      rw [toValues, lookup_reverse, Node.toValues_eq_map, lookup_map_snd]
      · rfl
      · rw [Node.toValues_eq_map, List.map_map]
        exact keys

theorem Node.descend?_toValue_cons (distinct : entries.Distinct) (origin : Origin) (key : String)
    (path : List String) :
    (Node.table origin entries).toValue.descend? (key :: path) =
      (entries.find? key).bind fun inner => inner.toValue.descend? path := by
  change (entries.toValues.lookup key).bind _ = _
  rw [Entries.lookup_toValues distinct, Option.bind_map]
  rfl

theorem Value.descend?_append (value : Value) (first second : List String) :
    value.descend? (first ++ second) =
      (value.descend? first).bind fun inner => inner.descend? second := by
  induction first generalizing value with
  | nil => rfl
  | cons key first inductionHypothesis =>
      cases value with
      | table entries =>
          simp only [List.cons_append, descend?]
          cases entries.lookup key with
          | none => rfl
          | some inner => exact inductionHypothesis inner
      | string text => rfl
      | integer value => rfl
      | float literal => rfl
      | boolean value => rfl
      | dateTime literal => rfl
      | array items => rfl

/-- What stands at a path while a table is built is found there in the end. -/
theorem Node.descend?_toValue {inner : Node} (distinct : node.Distinct)
    (reached : node.descend? path = some inner) :
    node.toValue.descend? path = some inner.toValue := by
  induction path generalizing node with
  | nil =>
      cases reached
      rfl
  | cons key path inductionHypothesis =>
      cases node with
      | leaf value => cases reached
      | tables last earlier => cases reached
      | table origin entries =>
          obtain ⟨next, found, reached⟩ := Option.bind_eq_some_iff.mp reached
          have inside := Entries.distinct_of_node distinct
          rw [descend?_toValue_cons inside, found]
          exact inductionHypothesis (inside.of_find? found) reached

/-- What is found at a path in the end has been built there, or lies in a value that has been
assigned. -/
theorem Node.exists_of_descend?_toValue (distinct : node.Distinct)
    (found : node.toValue.descend? path = some value) :
    (∃ inner, node.descend? path = some inner ∧ value = inner.toValue) ∨
      ∃ front rest leaf, path = front ++ rest ∧ rest ≠ [] ∧
        node.descend? front = some (.leaf leaf) ∧ leaf.descend? rest = some value := by
  induction path generalizing node with
  | nil => exact .inl ⟨node, rfl, (Option.some.inj found).symm⟩
  | cons key path inductionHypothesis =>
      cases node with
      | leaf leaf => exact .inr ⟨[], key :: path, leaf, rfl, List.cons_ne_nil _ _, rfl, found⟩
      | tables last earlier => cases found
      | table origin entries =>
          have inside := Entries.distinct_of_node distinct
          rw [descend?_toValue_cons inside] at found
          obtain ⟨next, stands, found⟩ := Option.bind_eq_some_iff.mp found
          have step (path : List String) :
              (Node.table origin entries).descend? (key :: path) = next.descend? path := by
            rw [descend?, stands]
            rfl
          rcases inductionHypothesis (inside.of_find? stands) found with
            ⟨inner, reached, isValue⟩ | ⟨front, rest, leaf, rfl, nonempty, reached, below⟩
          · exact .inl ⟨inner, (step path).trans reached, isValue⟩
          · exact .inr ⟨key :: front, rest, leaf, rfl, nonempty, (step front).trans reached, below⟩

end Tokenizer.Toml
