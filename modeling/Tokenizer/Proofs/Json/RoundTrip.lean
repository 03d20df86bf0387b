import Mathlib.Data.List.TakeWhile
import Mathlib.Tactic.SplitIfs
import Tokenizer.Json
import Tokenizer.Proofs.Json.Reader
import Tokenizer.Proofs.Text.Ascii

/-!
A document that is written is read back.

The main result says so for a document with anything behind it that may follow a value. Lines
and indents are blanks to the reader, and each value is shorter than the container in which it
stands, so the induction is on the length of the text.
-/

namespace Tokenizer.Json

variable {character closing : Char} {text following rest : List Char} {depth outer bound : Nat}

mutual

/-- What a document says, without its layout. -/
def toValue : Json → Value
  | .natural value => .number value 0
  | .string text => .string text
  | .array items => .array (itemValues items)
  | .object members => .object (memberValues members)

def itemValues : List Json → List Value
  | [] => []
  | item :: rest => toValue item :: itemValues rest

def memberValues : List (String × Json) → List (String × Value)
  | [] => []
  | (name, value) :: rest => (name, toValue value) :: memberValues rest

end

theorem itemValues_eq_map (items : List Json) : itemValues items = items.map toValue := by
  induction items with
  | nil => rfl
  | cons item items inductionHypothesis => rw [itemValues, inductionHypothesis, List.map_cons]

theorem memberValues_eq_map (members : List (String × Json)) :
    memberValues members = members.map fun member => (member.1, member.2.toValue) := by
  induction members with
  | nil => rfl
  | cons member members inductionHypothesis =>
      rw [memberValues, inductionHypothesis, List.map_cons]

theorem toValue_array (items : List Json) : (array items).toValue = .array (items.map toValue) := by
  rw [toValue, itemValues_eq_map]

theorem toValue_object (members : List (String × Json)) :
    (object members).toValue =
      .object (members.map fun member => (member.1, member.2.toValue)) := by
  rw [toValue, memberValues_eq_map]

/-! ### Strings -/

theorem readCharacters_backslash (escaped : escape? text = some (character, rest)) :
    readCharacters ('\\' :: text) =
      (readCharacters rest).map fun read => (character :: read.1, read.2) := by
  rw [readCharacters]
  simp only [Char.reduceBEq, Bool.false_eq_true, if_false, if_true]
  split
  · next refused =>
      rw [escaped] at refused
      cases refused
  · next meant after found =>
      rw [escaped] at found
      cases found
      rfl

theorem hexNumber?_controlDigits :
    ∀ code < 32, hexNumber? ('0' :: '0' :: controlDigits code) = some code := by
  decide

theorem escape?_controlDigits (control : character.toNat < 0x20) :
    escape? ('u' :: '0' :: '0' :: (controlDigits character.toNat ++ following)) =
      some (character, following) := by
  have unit : unit? ('0' :: '0' :: (controlDigits character.toNat ++ following)) =
      some (character.toNat, following) := by
    have number := hexNumber?_controlDigits character.toNat control
    rw [controlDigits] at number ⊢
    simp only [List.cons_append, List.nil_append, unit?, number, Option.map_some]
  have low : ¬ (0xd800 ≤ character.toNat ∧ character.toNat ≤ 0xdbff) := by omega
  have valid : character.toNat.isValidChar := character.valid
  simp only [escape?, beq_self_eq_true, if_true, unicodeEscape?, unit, Bool.and_eq_true,
    decide_eq_true_eq, if_neg low, if_pos valid, Char.ofNat_toNat]

theorem readCharacters_escape (character : Char) (following : List Char) :
    readCharacters (escape character ++ following) =
      (readCharacters following).map fun read => (character :: read.1, read.2) := by
  unfold escape
  simp only [beq_iff_eq]
  split_ifs with quote backslash backspace formFeed lineFeed carriageReturn tab control
  · exact readCharacters_backslash (by rw [quote]; rfl)
  · exact readCharacters_backslash (by rw [backslash]; rfl)
  · exact readCharacters_backslash (by rw [backspace]; rfl)
  · exact readCharacters_backslash (by rw [formFeed]; rfl)
  · exact readCharacters_backslash (by rw [lineFeed]; rfl)
  · exact readCharacters_backslash (by rw [carriageReturn]; rfl)
  · exact readCharacters_backslash (by rw [tab]; rfl)
  · exact readCharacters_backslash (escape?_controlDigits control)
  · rw [List.singleton_append, readCharacters]
    simp [quote, backslash, control]

theorem readCharacters_quote (text following : List Char) :
    readCharacters (text.flatMap escape ++ '"' :: following) = some (text, following) := by
  induction text with
  | nil =>
      rw [List.flatMap_nil, List.nil_append, readCharacters]
      rfl
  | cons character text inductionHypothesis =>
      rw [List.flatMap_cons, List.append_assoc, readCharacters_escape, inductionHypothesis]
      rfl

/-! ### Numbers -/

/-- What may follow a value in a document: a comma or a line end, or nothing. -/
def Ends (following : List Char) : Prop :=
  ∀ character ∈ following.head?, character = ',' ∨ character = '\n'

theorem ends_nil : Ends [] := by simp [Ends]

theorem ends_comma (rest : List Char) : Ends (',' :: rest) := by simp [Ends]

theorem ends_indent (depth : Nat) (rest : List Char) : Ends (indent depth ++ rest) := by
  simp [Ends, indent]

theorem readDigits_append (ends : Ends following) (nonempty : text ≠ [])
    (digits : ∀ digit ∈ text, digit.isDigit = true) :
    readDigits (text ++ following) = some (text, following) := by
  have stops : following.takeWhile Char.isDigit = [] ∧
      following.dropWhile Char.isDigit = following := by
    cases following with
    | nil => exact ⟨rfl, rfl⟩
    | cons character rest =>
        have noDigit : ¬ character.isDigit = true := by
          rcases ends character rfl with rfl | rfl <;> decide
        exact ⟨List.takeWhile_cons_of_neg noDigit, List.dropWhile_cons_of_neg noDigit⟩
  rw [readDigits, List.takeWhile_append_of_pos digits, List.dropWhile_append_of_pos digits,
    stops.1, stops.2, List.append_nil, if_neg (by simpa using nonempty)]

theorem exists_digit (value : Nat) : ∃ digit digits, (Nat.repr value).toList = digit :: digits ∧
    ∀ other, other.isDigit = false → digit ≠ other := by
  obtain ⟨digit, digits, written⟩ := Text.exists_repr value
  have isDigit : digit.isDigit = true :=
    Text.isDigit_of_mem_repr (by rw [written]; exact List.mem_cons_self)
  exact ⟨digit, digits, written, fun _ => Text.ne_of_class Char.isDigit isDigit⟩

theorem readMagnitude_repr (ends : Ends following) (value : Nat) :
    readMagnitude ((Nat.repr value).toList ++ following) =
      some (((value : Int), 0), following) := by
  have digits : ∀ digit ∈ (Nat.repr value).toList, digit.isDigit = true := fun _ membership =>
    Text.isDigit_of_mem_repr membership
  have nonempty : (Nat.repr value).toList ≠ [] := by
    rw [Nat.toList_repr]
    exact Nat.toDigits_ne_nil
  have noLeadingZero : ((Nat.repr value).toList == ['0'] ||
      (Nat.repr value).toList.head? != some '0') = true := by
    rw [Nat.toList_repr]
    by_cases zero : value = 0
    · subst zero
      rfl
    · have positive := Text.head?_toDigits_ne_zero (Nat.pos_of_ne_zero zero)
      rw [Bool.or_eq_true, bne_iff_ne]
      exact .inr positive
  have whole : readWhole ((Nat.repr value).toList ++ following) =
      some ((Nat.repr value).toList, following) := by
    rw [readWhole, readDigits_append ends nonempty digits, Option.filter_some, if_pos noLeadingZero]
  have fraction : readFraction following = some ([], following) := by
    cases following with
    | nil => rfl
    | cons character rest => rcases ends character rfl with rfl | rfl <;> rfl
  have exponent : readExponent following = some (0, following) := by
    cases following with
    | nil => rfl
    | cons character rest => rcases ends character rfl with rfl | rfl <;> rfl
  have number : numberOfDigits (Nat.repr value).toList = value := by
    rw [numberOfDigits, Nat.toList_repr, Nat.ofDigitChars_ten_toDigits]
  simp only [readMagnitude, whole, fraction, exponent, Option.bind_eq_bind, Option.bind_some,
    List.append_nil, number]
  rfl

/-! ### Blanks -/

theorem skipBlanks_of_isBlank (solid : isBlank character = false) :
    skipBlanks (character :: rest) = character :: rest :=
  List.dropWhile_cons_of_neg (by simp [solid])

theorem skipBlanks_indent (depth : Nat) (text : List Char) :
    skipBlanks (indent depth ++ text) = skipBlanks text := by
  apply List.dropWhile_append_of_pos
  intro character membership
  rcases List.mem_cons.mp membership with rfl | isSpace
  · rfl
  · rw [List.eq_of_mem_replicate isSpace]
    rfl

theorem readValueWithin_congr (bound : Nat) {other : List Char}
    (same : skipBlanks text = skipBlanks other) :
    readValueWithin bound text = readValueWithin bound other := by
  cases bound with
  | zero => rfl
  | succ bound => simp only [readValueWithin, same]

theorem readMember_indent (value : List Char → Option (Value × List Char)) (depth : Nat)
    (text : List Char) : readMember value (indent depth ++ text) = readMember value text := by
  simp only [readMember, skipBlanks_indent]

/-! ### Containers -/

/-- Texts that follow another one in a container, each behind a comma on a line of its own. -/
def lines (depth : Nat) : List (List Char) → List Char
  | [] => []
  | text :: rest => ',' :: (indent depth ++ (text ++ lines depth rest))

theorem itemCharacters_eq (depth : Nat) (items : List Json) :
    itemCharacters depth items = lines depth (items.map (characters depth)) := by
  induction items with
  | nil => rfl
  | cons item items inductionHypothesis =>
      rw [itemCharacters, inductionHypothesis, List.map_cons, lines, List.append_assoc]

def memberText (depth : Nat) (member : String × Json) : List Char :=
  quote member.1 ++ ([':', ' '] ++ characters depth member.2)

theorem memberCharacters_eq (depth : Nat) (members : List (String × Json)) :
    memberCharacters depth members = lines depth (members.map (memberText depth)) := by
  induction members with
  | nil => rfl
  | cons member members inductionHypothesis =>
      rw [memberCharacters, inductionHypothesis, List.map_cons, lines, memberText]
      simp only [List.append_assoc]

theorem length_le_length_lines (depth : Nat) (texts : List (List Char)) :
    texts.length ≤ (lines depth texts).length := by
  induction texts with
  | nil => exact Nat.le_refl 0
  | cons text texts inductionHypothesis =>
      simp only [lines, List.length_cons, List.length_append]
      omega

theorem length_le_of_mem_lines (depth : Nat) {texts : List (List Char)}
    (membership : text ∈ texts) : text.length ≤ (lines depth texts).length := by
  induction texts with
  | nil => cases membership
  | cons first texts inductionHypothesis =>
      simp only [lines, List.length_cons, List.length_append]
      rcases List.mem_cons.mp membership with rfl | inTail
      · omega
      · have within := inductionHypothesis inTail
        omega

section Elements

variable {Item Element : Type} {element : List Char → Option (Element × List Char)}
  {write : Item → List Char} {mean : Item → Element} {first : Item} {others : List Item}

/-- A text stands for an element wherever it stands behind an indent. -/
structure Spells (element : List Char → Option (Element × List Char)) (closing : Char)
    (text : List Char) (meaning : Element) : Prop where
  /-- It does not look like the end of its container. -/
  opens : ∃ mark rest, text = mark :: rest ∧ isBlank mark = false ∧ mark ≠ closing
  read : ∀ depth following, Ends following →
    element (indent depth ++ (text ++ following)) = some (meaning, following)

def Closes (closing : Char) : Prop :=
  closing = ']' ∨ closing = '\x7d'

theorem readElements_lines (closes : Closes closing)
    (spelled : ∀ item ∈ first :: others, Spells element closing (write item) (mean item))
    (enough : others.length < bound) (following : List Char) :
    readElements element closing bound
        (indent depth ++ (write first ++ (lines depth (others.map write) ++
          (indent outer ++ closing :: following)))) =
      some (mean first :: others.map mean, following) := by
  induction others generalizing first bound with
  | nil =>
      -- Behind the last element there is no comma but the line of the mark that closes.
      obtain ⟨bound, rfl⟩ := Nat.exists_eq_add_one.mpr enough
      have read := (spelled first (by simp)).read depth _ (ends_indent outer (closing :: following))
      have stops : skipBlanks (indent outer ++ closing :: following) = closing :: following := by
        rw [skipBlanks_indent]
        rcases closes with rfl | rfl <;> rfl
      have noComma : (closing == ',') = false := by
        rcases closes with rfl | rfl <;> rfl
      simp only [List.map_nil, lines, List.nil_append, readElements, read, stops, noComma,
        Bool.false_eq_true, if_false, beq_self_eq_true, if_true]
  | cons next others inductionHypothesis =>
      obtain ⟨bound, rfl⟩ := Nat.exists_eq_add_one.mpr (Nat.zero_lt_of_lt enough)
      rw [List.forall_mem_cons] at spelled
      have further := inductionHypothesis spelled.2 (Nat.lt_of_succ_lt_succ enough)
      have read := spelled.1.read depth _ (ends_comma
        (indent depth ++ (write next ++ (lines depth (others.map write) ++
          (indent outer ++ closing :: following)))))
      have comma (rest : List Char) : skipBlanks (',' :: rest) = ',' :: rest := rfl
      simp only [List.map_cons, lines, List.cons_append, List.append_assoc, readElements, read,
        comma, beq_self_eq_true, if_true, further]
      rfl

theorem readContainer_lines (closes : Closes closing)
    (spelled : ∀ item ∈ first :: others, Spells element closing (write item) (mean item))
    (following : List Char) :
    readContainer element closing
        (indent depth ++ (write first ++ (lines depth (others.map write) ++
          (indent outer ++ closing :: following)))) =
      some (mean first :: others.map mean, following) := by
  obtain ⟨mark, rest, text, solid, different⟩ := (spelled first (by simp)).opens
  have different : (mark == closing) = false := beq_false_of_ne different
  rw [readContainer, skipBlanks_indent]
  -- Only the test of the first mark looks at the text; the elements are read from all of it.
  conv_lhs => simp only [text, List.cons_append, skipBlanks_of_isBlank solid,
    different, Bool.false_eq_true, if_false]
  have enough := length_le_length_lines depth (others.map write)
  rw [List.length_map] at enough
  rw [← List.cons_append, ← text]
  apply readElements_lines closes spelled
  simp only [indent, List.length_cons, List.length_append]
  omega

end Elements

/-! ### Values -/

/-- A value begins with a character that is no blank and closes no container. -/
theorem exists_characters (closes : Closes closing) (depth : Nat) (json : Json) :
    ∃ mark rest, characters depth json = mark :: rest ∧ isBlank mark = false ∧
      mark ≠ closing := by
  cases json with
  | natural value =>
      obtain ⟨digit, digits, written, different⟩ := exists_digit value
      refine ⟨digit, digits, by rw [characters, written], by simp [isBlank, different], ?_⟩
      rcases closes with rfl | rfl
      · exact different ']' rfl
      · exact different '\x7d' rfl
  | string text =>
      refine ⟨'"', _, rfl, rfl, ?_⟩
      rcases closes with rfl | rfl <;> decide
  | array items =>
      cases items <;> refine ⟨'[', _, rfl, rfl, ?_⟩ <;> rcases closes with rfl | rfl <;> decide
  | object members =>
      cases members <;> refine ⟨'\x7b', _, rfl, rfl, ?_⟩ <;>
        rcases closes with rfl | rfl <;> decide

/-- Texts of values can be read with this bound as far as they are not longer. -/
def ReadsWithin (bound : Nat) : Prop :=
  ∀ (json : Json) (depth : Nat) (following : List Char), (characters depth json).length ≤ bound →
    Ends following →
      readValueWithin bound (characters depth json ++ following) = some (json.toValue, following)

theorem ReadsWithin.spells_value (reads : ReadsWithin bound) (closes : Closes closing)
    {json : Json} (short : (characters depth json).length ≤ bound) :
    Spells (readValueWithin bound) closing (characters depth json) json.toValue where
  opens := exists_characters closes depth json
  read inner following ends := by
    rw [readValueWithin_congr bound (skipBlanks_indent inner _)]
    exact reads json depth following short ends

theorem ReadsWithin.spells_member (reads : ReadsWithin bound) (closes : Closes closing)
    {member : String × Json} (short : (memberText depth member).length ≤ bound) :
    Spells (readMember (readValueWithin bound)) closing (memberText depth member)
      (member.1, member.2.toValue) where
  opens := by
    refine ⟨'"', _, rfl, rfl, ?_⟩
    rcases closes with rfl | rfl <;> decide
  read inner following ends := by
    have shortValue : (characters depth member.2).length ≤ bound := by
      simp only [memberText, List.length_append] at short
      omega
    have text : memberText depth member ++ following =
        '"' :: (member.1.toList.flatMap escape ++
          '"' :: ':' :: ' ' :: (characters depth member.2 ++ following)) := by
      simp [memberText, quote]
    have value := reads member.2 depth following shortValue ends
    have spaced (rest : List Char) :
        readValueWithin bound (' ' :: rest) = readValueWithin bound rest :=
      readValueWithin_congr bound rfl
    have quote : isBlank '"' = false := rfl
    have colon : isBlank ':' = false := rfl
    rw [readMember_indent, text, readMember, skipBlanks_of_isBlank quote]
    simp only [readCharacters_quote, skipBlanks_of_isBlank colon, spaced, value, Option.map_some,
      String.ofList_toList]

theorem readValueWithin_natural (ends : Ends following) (value : Nat) :
    readValueWithin (bound + 1) (characters depth (.natural value) ++ following) =
      some (toValue (.natural value), following) := by
  have read := readMagnitude_repr ends value
  obtain ⟨digit, digits, written, different⟩ := exists_digit value
  rw [written, List.cons_append] at read
  have number :
      readNumber (digit :: (digits ++ following)) = some (.number value 0, following) := by
    unfold readNumber
    split
    · next same => exact absurd (List.cons.inj same).1 (different _ rfl)
    · rw [read]
      rfl
  rw [characters, written, List.cons_append, toValue, ← number]
  rw [readValueWithin, skipBlanks_of_isBlank (by simp [isBlank, different])]
  split
  · next same => exact absurd (List.cons.inj same).1 (different _ rfl)
  · next same => exact absurd (List.cons.inj same).1 (different _ rfl)
  · next same => exact absurd (List.cons.inj same).1 (different _ rfl)
  · next same => exact absurd (List.cons.inj same).1 (different _ rfl)
  · next same => exact absurd (List.cons.inj same).1 (different _ rfl)
  · next same => exact absurd (List.cons.inj same).1 (different _ rfl)
  · rfl

theorem readValueWithin_string (value : String) (following : List Char) :
    readValueWithin (bound + 1) (characters depth (.string value) ++ following) =
      some (toValue (.string value), following) := by
  have text : characters depth (.string value) ++ following =
      '"' :: (value.toList.flatMap escape ++ '"' :: following) := by
    simp [characters, quote]
  have opened (rest : List Char) : readValueWithin (bound + 1) ('"' :: rest) =
      (readCharacters rest).map fun read => (.string (String.ofList read.1), read.2) := rfl
  rw [text, opened, readCharacters_quote, Option.map_some, String.ofList_toList]
  rfl

theorem readValueWithin_bracket (rest : List Char) :
    readValueWithin (bound + 1) ('[' :: rest) =
      (readContainer (readValueWithin bound) ']' rest).map fun read => (.array read.1, read.2) :=
  rfl

theorem readValueWithin_brace (rest : List Char) :
    readValueWithin (bound + 1) ('\x7b' :: rest) =
      (readContainer (readMember (readValueWithin bound)) '\x7d' rest).map fun read =>
        (.object read.1, read.2) :=
  rfl

theorem ReadsWithin.readValueWithin_array (reads : ReadsWithin bound) (items : List Json)
    (short : (characters depth (.array items)).length ≤ bound + 1) (following : List Char) :
    readValueWithin (bound + 1) (characters depth (.array items) ++ following) =
      some (toValue (.array items), following) := by
  cases items with
  | nil => rfl
  | cons first others =>
      have text : characters depth (.array (first :: others)) =
          '[' :: (indent (depth + 1) ++ (characters (depth + 1) first ++
            (lines (depth + 1) (others.map (characters (depth + 1))) ++
              (indent depth ++ [']'])))) := by
        rw [characters, itemCharacters_eq]
        simp only [List.append_assoc]
      rw [text] at short ⊢
      simp only [List.length_cons, List.length_append] at short
      have closes : Closes ']' := .inl rfl
      have spelled : ∀ item ∈ first :: others, Spells (readValueWithin bound) ']'
          (characters (depth + 1) item) item.toValue := by
        refine List.forall_mem_cons.mpr ⟨reads.spells_value closes (by omega), ?_⟩
        intro item membership
        have within := length_le_of_mem_lines (depth + 1)
          (List.mem_map_of_mem (f := characters (depth + 1)) membership)
        exact reads.spells_value closes (by omega)
      simp only [List.cons_append, List.append_assoc, List.nil_append]
      rw [readValueWithin_bracket, readContainer_lines closes spelled, toValue_array]
      rfl

theorem ReadsWithin.readValueWithin_object (reads : ReadsWithin bound)
    (members : List (String × Json))
    (short : (characters depth (.object members)).length ≤ bound + 1) (following : List Char) :
    readValueWithin (bound + 1) (characters depth (.object members) ++ following) =
      some (toValue (.object members), following) := by
  cases members with
  | nil => rfl
  | cons first others =>
      have text : characters depth (.object (first :: others)) =
          '\x7b' :: (indent (depth + 1) ++ (memberText (depth + 1) first ++
            (lines (depth + 1) (others.map (memberText (depth + 1))) ++
              (indent depth ++ ['\x7d'])))) := by
        rw [characters, memberCharacters_eq, memberText]
        simp only [List.append_assoc]
      rw [text] at short ⊢
      simp only [List.length_cons, List.length_append] at short
      have closes : Closes '\x7d' := .inr rfl
      have spelled : ∀ member ∈ first :: others,
          Spells (readMember (readValueWithin bound)) '\x7d' (memberText (depth + 1) member)
            (member.1, member.2.toValue) := by
        refine List.forall_mem_cons.mpr ⟨reads.spells_member closes (by omega), ?_⟩
        intro member membership
        have within := length_le_of_mem_lines (depth + 1)
          (List.mem_map_of_mem (f := memberText (depth + 1)) membership)
        exact reads.spells_member closes (by omega)
      simp only [List.cons_append, List.append_assoc, List.nil_append]
      rw [readValueWithin_brace, readContainer_lines closes spelled, toValue_object]
      rfl

theorem readsWithin (bound : Nat) : ReadsWithin bound := by
  induction bound with
  | zero =>
      -- No value is written with no characters.
      intro json depth following short _
      obtain ⟨mark, rest, written, _⟩ := exists_characters (.inl rfl) depth json
      rw [written] at short
      cases short
  | succ bound inductionHypothesis =>
      intro json depth following short ends
      cases json with
      | natural value => exact readValueWithin_natural ends value
      | string text => exact readValueWithin_string text following
      | array items => exact inductionHypothesis.readValueWithin_array items short following
      | object members => exact inductionHypothesis.readValueWithin_object members short following

/-- What is written is a JSON document, and it says what was to be written. -/
theorem read?_render (json : Json) : read? json.render = some json.toValue := by
  have text : json.render.toList = json.characters 0 ++ [] := by
    rw [render, String.toList_ofList, List.append_nil]
  have length : json.render.length = (json.characters 0).length := by
    rw [render, String.length_ofList]
  have read := readsWithin (json.characters 0).length json 0 [] (Nat.le_refl _) ends_nil
  simp only [read?, text, length, read]
  rfl

end Tokenizer.Json
