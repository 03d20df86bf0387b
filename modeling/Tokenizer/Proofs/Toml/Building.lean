import Mathlib.Data.List.Infix
import Tokenizer.Toml.Table

/-!
Changing a table under construction at the end of a path.

What is put into the table that a path leads to is put at a place of the whole: the tables that are
missing on the way there are made, and everything else stays as it is.
-/

namespace Tokenizer.Toml

/-! ### What stands at a path -/

namespace Entries

variable {key other : String} {old : Node} {entries : Entries}

@[simp]
theorem find?_nil (key : String) : find? key [] = none :=
  rfl

@[simp]
theorem find?_cons_self (key : String) (node : Node) (entries : Entries) :
    find? key ((key, node) :: entries) = some node := by
  rw [find?, List.lookup_cons, beq_self_eq_true]

theorem find?_cons_of_ne (different : other ≠ key) (node : Node) (entries : Entries) :
    find? other ((key, node) :: entries) = find? other entries := by
  rw [find?, List.lookup_cons, beq_false_of_ne different]
  rfl

theorem find?_replace_of_ne (different : other ≠ key) (node : Node) (entries : Entries) :
    find? other (entries.replace key node) = find? other entries := by
  induction entries with
  | nil => rfl
  | cons entry entries inductionHypothesis =>
      obtain ⟨first, old⟩ := entry
      have step : replace key node ((first, old) :: entries) =
          (if first == key then (key, node) else (first, old)) :: replace key node entries := rfl
      rw [step]
      by_cases same : first = key
      · subst same
        rw [if_pos (beq_self_eq_true first), find?_cons_of_ne different,
          find?_cons_of_ne different, inductionHypothesis]
      · rw [if_neg (by simpa using same)]
        by_cases isFirst : other = first
        · subst isFirst
          rw [find?_cons_self, find?_cons_self]
        · rw [find?_cons_of_ne isFirst, find?_cons_of_ne isFirst, inductionHypothesis]

theorem find?_replace_self (found : find? key entries = some old) (node : Node) :
    find? key (entries.replace key node) = some node := by
  induction entries with
  | nil => cases found
  | cons entry entries inductionHypothesis =>
      obtain ⟨first, older⟩ := entry
      have step : replace key node ((first, older) :: entries) =
          (if first == key then (key, node) else (first, older)) :: replace key node entries := rfl
      rw [step]
      by_cases same : first = key
      · subst same
        rw [if_pos (beq_self_eq_true first), find?_cons_self]
      · rw [if_neg (by simpa using same), find?_cons_of_ne (Ne.symm same)]
        rw [find?_cons_of_ne (Ne.symm same)] at found
        exact inductionHypothesis found

end Entries

/-- What is seen of a node without looking into it. -/
inductive Shape where
  | leaf (value : Value)
  | table (origin : Origin)
  | tables

namespace Node

def shape : Node → Shape
  | .leaf value => .leaf value
  | .table origin _ => .table origin
  | .tables _ _ => .tables

/-- What stands in a table under construction at a path of keys. -/
def descend? (node : Node) : List String → Option Node
  | [] => some node
  | key :: path =>
      match node with
      | .table _ entries => (Entries.find? key entries).bind fun inner => inner.descend? path
      | _ => none

def shape? (node : Node) (path : List String) : Option Shape :=
  (node.descend? path).map shape

theorem descend?_append (node : Node) (first second : List String) :
    node.descend? (first ++ second) =
      (node.descend? first).bind fun inner => inner.descend? second := by
  induction first generalizing node with
  | nil => rfl
  | cons key first inductionHypothesis =>
      cases node with
      | leaf value => rfl
      | tables last earlier => rfl
      | table origin entries =>
          simp only [List.cons_append, descend?]
          cases Entries.find? key entries with
          | none => rfl
          | some inner => exact inductionHypothesis inner

variable {path : List String} {origin made : Origin} {entries : Entries} {old new node : Node}

theorem exists_of_shape_table (isTable : node.shape = .table origin) :
    ∃ entries, node = .table origin entries := by
  cases node with
  | table _ entries =>
      cases isTable
      exact ⟨entries, rfl⟩
  | leaf value => cases isTable
  | tables last earlier => cases isTable

/-- Something stands on the whole way to a place at which something stands. -/
theorem shape?_ne_none_of_prefix {place : List String} {shape : Shape}
    (found : node.shape? place = some shape) (isPrefix : path <+: place) :
    node.shape? path ≠ none := by
  obtain ⟨rest, rfl⟩ := isPrefix
  intro missing
  rw [shape?, descend?_append, Option.map_eq_none_iff.mp missing] at found
  cases found

@[simp]
theorem shape?_nil (node : Node) : node.shape? [] = some node.shape :=
  rfl

theorem shape?_cons (origin : Origin) (entries : Entries) (key : String) (path : List String) :
    (Node.table origin entries).shape? (key :: path) =
      (entries.find? key).bind fun inner => inner.shape? path := by
  rw [shape?, descend?, Option.map_bind]
  rfl

theorem shape?_leaf_of_ne {value : Value} (nonempty : path ≠ []) :
    (Node.leaf value).shape? path = none := by
  cases path with
  | nil => exact absurd rfl nonempty
  | cons key path => rfl

theorem shape?_empty_of_ne (nonempty : path ≠ []) : (Node.table origin []).shape? path = none := by
  cases path with
  | nil => exact absurd rfl nonempty
  | cons key path => rfl

/-- One thing is put at a place, and the tables that are missing on the way are made. -/
structure Extends (place : List String) (made : Origin) (shape : Shape) (old new : Node) :
    Prop where
  here : new.shape? place = some shape
  way : ∀ path, path <+: place → path ≠ place →
    new.shape? path = some ((old.shape? path).getD (.table made))
  others : ∀ path, ¬path <+: place → new.shape? path = old.shape? path

theorem extends_nil {shape : Shape} (made : Origin) (isShape : new.shape = shape)
    (kept : ∀ path, path ≠ [] → new.shape? path = old.shape? path) :
    Extends [] made shape old new where
  here := congrArg some isShape
  way _ isPrefix different := absurd (List.prefix_nil.mp isPrefix) different
  others path isNoPrefix := kept path fun isNil => isNoPrefix (isNil ▸ List.prefix_rfl)

/-- A thing inside a table is one in the table around it, which is made if it is missing. -/
theorem Extends.cons {place : List String} {shape : Shape} {key : String} {after : Entries}
    (inside : Extends place made shape ((entries.find? key).getD (.table made [])) node)
    (found : after.find? key = some node)
    (kept : ∀ other, other ≠ key → after.find? other = entries.find? other) (origin : Origin) :
    Extends (key :: place) made shape (.table origin entries) (.table origin after) where
  here := by
    rw [shape?_cons, found]
    exact inside.here
  way path isPrefix different := by
    cases path with
    | nil => rfl
    | cons first path =>
        obtain ⟨rfl, further⟩ := List.cons_prefix_cons.mp isPrefix
        have step := inside.way path further fun same => different (by rw [same])
        rw [shape?_cons, found, Option.bind_some, step, shape?_cons]
        cases entries.find? first with
        | some inner => rfl
        | none =>
            cases path with
            | nil => rfl
            | cons _ _ => rfl
  others path isNoPrefix := by
    cases path with
    | nil => exact absurd (List.nil_prefix) isNoPrefix
    | cons first path =>
        rw [shape?_cons, shape?_cons]
        by_cases same : first = key
        · subst same
          have isNoPrefix : ¬path <+: place := fun isPrefix =>
            isNoPrefix (List.cons_prefix_cons.mpr ⟨rfl, isPrefix⟩)
          rw [found, Option.bind_some, inside.others path isNoPrefix]
          cases entries.find? first with
          | some inner => rfl
          | none => exact shape?_empty_of_ne fun isNil => isNoPrefix (isNil ▸ List.nil_prefix)
        · rw [kept first same]

end Node

/-! ### Changing a table -/

namespace Entries

variable {dotted : Bool} {change : Origin → Entries → Except Problem Entries}
  {path rest : List String} {key : String} {made origin last : Origin}
  {entries inner changed : Entries} {shape : Shape}

/-- A path leads to a table that is to be changed. Tables that are missing are made. -/
inductive Leads (dotted : Bool) (made : Origin) :
    List String → Origin → Entries → Origin → Entries → Prop where
  | here {origin : Origin} {entries : Entries} : Leads dotted made [] origin entries origin entries
  | make {key : String} {path : List String} {origin last : Origin} {entries inner : Entries} :
      entries.find? key = none → made = (if dotted then .dotted else .implied) →
      Leads dotted made path made [] last inner →
      Leads dotted made (key :: path) origin entries last inner
  | enter {key : String} {path : List String} {origin between last : Origin}
      {entries next inner : Entries} :
      entries.find? key = some (.table between next) → (dotted = true → between ≠ .header) →
      Leads dotted made path between next last inner →
      Leads dotted made (key :: path) origin entries last inner

/-- What is put into the last table is put into the first one. -/
theorem Leads.exists_update (leads : Leads dotted made path origin entries last inner)
    (changes : change last inner = .ok changed)
    (inside : Node.Extends rest made shape (.table last inner) (.table last changed)) :
    ∃ after, update dotted change path origin entries = .ok after ∧
      Node.Extends (path ++ rest) made shape (.table origin entries) (.table origin after) := by
  induction leads with
  | here => exact ⟨changed, changes, inside⟩
  | @make key path origin last entries inner missing isMade _ inductionHypothesis =>
      obtain ⟨after, updated, further⟩ := inductionHypothesis changes inside
      refine ⟨(key, .table made after) :: entries, ?_, Node.Extends.cons ?_ (find?_cons_self ..)
        (fun other different => find?_cons_of_ne different ..) origin⟩
      · rw [update, missing]
        simp only [← isMade, updated]
        rfl
      · rw [missing]
        exact further
  | @enter key path origin between last entries next inner found allowed _ inductionHypothesis =>
      obtain ⟨after, updated, further⟩ := inductionHypothesis changes inside
      have open_ : (dotted && between == .header) = false := by
        cases dotted with
        | false => rfl
        | true => simpa using allowed rfl
      refine ⟨entries.replace key (.table between after), ?_, Node.Extends.cons ?_
        (find?_replace_self found _)
        (fun other different => find?_replace_of_ne different ..) origin⟩
      · rw [update, found]
        simp only [open_, Bool.false_eq_true, if_false, updated]
        rfl
      · rw [found]
        exact further

/-- A path leads to a table if it meets only tables, and for a dotted path none that has a
header. -/
theorem exists_leads (makes : (Node.table origin entries).shape? path = none →
      made = (if dotted then .dotted else .implied))
    (meets : ∀ front shape, front <+: path → front ≠ [] →
      (Node.table origin entries).shape? front = some shape →
      ∃ between, shape = .table between ∧ (dotted = true → between ≠ .header)) :
    ∃ last inner, Leads dotted made path origin entries last inner ∧
      ((Node.table origin entries).shape? path).getD (.table made) = .table last ∧
      ∀ rest, rest ≠ [] → (Node.table last inner).shape? rest =
        (Node.table origin entries).shape? (path ++ rest) := by
  induction path generalizing origin entries with
  | nil => exact ⟨origin, entries, .here, rfl, fun _ _ => rfl⟩
  | cons key path inductionHypothesis =>
      cases found : find? key entries with
      | none =>
          have missing (path : List String) :
              (Node.table origin entries).shape? (key :: path) = none := by
            rw [Node.shape?_cons, found]
            rfl
          have isMade := makes (missing path)
          obtain ⟨last, inner, leads, isLast, below⟩ := @inductionHypothesis made []
            (fun _ => isMade) fun front shape _ nonempty isShape => by
              rw [Node.shape?_empty_of_ne nonempty] at isShape
              cases isShape
          refine ⟨last, inner, .make found isMade leads, ?_, ?_⟩
          · rw [missing]
            cases path with
            | nil => exact isLast
            | cons _ _ => exact isLast
          · intro rest nonempty
            rw [List.cons_append, missing, below rest nonempty]
            exact Node.shape?_empty_of_ne (List.append_ne_nil_of_right_ne_nil _ nonempty)
      | some node =>
          obtain ⟨between, isTable, allowed⟩ := meets [key] node.shape
            (List.cons_prefix_cons.mpr ⟨rfl, List.nil_prefix⟩) (List.cons_ne_nil _ _)
            (by rw [Node.shape?_cons, found]; rfl)
          obtain ⟨next, rfl⟩ := node.exists_of_shape_table isTable
          have goes (path : List String) : (Node.table origin entries).shape? (key :: path) =
              (Node.table between next).shape? path := by
            rw [Node.shape?_cons, found]
            rfl
          obtain ⟨last, inner, leads, isLast, below⟩ := @inductionHypothesis between next
            (fun missing => makes (by rwa [goes]))
            fun front shape isPrefix _ isShape => meets (key :: front) shape
              (List.cons_prefix_cons.mpr ⟨rfl, isPrefix⟩) (List.cons_ne_nil _ _) (by rwa [goes])
          refine ⟨last, inner, .enter found allowed leads, by rwa [goes], fun rest nonempty => ?_⟩
          rw [List.cons_append, goes, below rest nonempty]

end Entries

end Tokenizer.Toml
