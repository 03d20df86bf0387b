import Tokenizer.Proofs.Toml.Text

/-!
Every form of a key, a setting or an inline table is read as what it stands for.
-/

namespace Tokenizer.Toml

variable {character : Char} {name : String} {key : Key} {depth fuel : Nat}
  {front letters before behind text value rest : List Char}

/-! ### Keys -/

theorem isBareKeyCharacter_iff (character : Char) :
    isBareKeyCharacter character = true ↔ BareCharacter character := by
  simp only [isBareKeyCharacter, BareCharacter, Char.isAlphanum, Bool.or_eq_true, beq_iff_eq,
    Text.isAlpha_iff, Text.isDigit_iff, or_assoc]

theorem BareCharacter.ne {other : Char} (bare : BareCharacter character)
    (foreign : isBareKeyCharacter other = false) : character ≠ other :=
  Text.ne_of_class isBareKeyCharacter ((isBareKeyCharacter_iff character).mpr bare) foreign

theorem BareCharacter.solid (bare : BareCharacter character) : Solid character := by
  unfold Solid
  simp only [List.mem_cons, List.not_mem_nil, or_false, not_or]
  exact ⟨bare.ne rfl, bare.ne rfl, bare.ne rfl, bare.ne rfl, bare.ne rfl⟩

theorem TextForm.solid_delimiter (form : TextForm) : Solid form.delimiter := by
  cases form <;> unfold Solid <;> decide

/-- What may begin a statement. -/
def Opens (character : Char) : Prop :=
  BareCharacter character ∨ character = '"' ∨ character = '\x27'

theorem Opens.solid (opens : Opens character) : Solid character := by
  rcases opens with bare | rfl | rfl
  · exact bare.solid
  · exact TextForm.basic.solid_delimiter
  · exact TextForm.literal.solid_delimiter

theorem Opens.ne {other : Char} (opens : Opens character)
    (foreign : isBareKeyCharacter other = false) (noQuote : other ≠ '"')
    (noApostrophe : other ≠ '\x27') : character ≠ other := by
  rcases opens with bare | rfl | rfl
  · exact bare.ne foreign
  · exact noQuote.symm
  · exact noApostrophe.symm

theorem TextForm.opens_delimiter (form : TextForm) : Opens form.delimiter := by
  cases form
  · exact .inr (.inl rfl)
  · exact .inr (.inr rfl)
  · exact .inr (.inl rfl)
  · exact .inr (.inr rfl)

theorem exists_of_nameWritten (written : NameWritten name letters) :
    ∃ first others, letters = first :: others ∧ Opens first := by
  cases written with
  | bare nonempty bare =>
      cases letters : name.toList with
      | nil => exact absurd (String.toList_eq_nil_iff.mp letters) nonempty
      | cons first others =>
          exact ⟨first, others, rfl, .inl (bare first (by rw [letters]; exact List.mem_cons_self))⟩
  | @quoted form body => exact ⟨_, _, rfl, form.opens_delimiter⟩

theorem exists_of_keyWritten (written : KeyWritten key letters) :
    ∃ first others, letters = first :: others ∧ Opens first := by
  cases written with
  | last named => exact exists_of_nameWritten named
  | dotted named =>
      obtain ⟨first, others, rfl, opens⟩ := exists_of_nameWritten named
      exact ⟨first, _, rfl, opens⟩

theorem exists_of_assigned (assigned : Assigned key value letters) :
    ∃ first others, letters = first :: others ∧ Opens first := by
  obtain ⟨written, _, _⟩ := assigned
  obtain ⟨first, others, rfl, opens⟩ := exists_of_keyWritten written
  exact ⟨first, _, rfl, opens⟩

theorem readName_bare (nonempty : name ≠ "")
    (bare : ∀ character ∈ name.toList, BareCharacter character)
    (stops : ∀ character ∈ rest.head?, isBareKeyCharacter character = false) :
    readName (name.toList ++ rest) = .ok (name, rest) := by
  have all : ∀ letter ∈ name.toList, isBareKeyCharacter letter = true :=
    fun letter membership => (isBareKeyCharacter_iff letter).mpr (bare letter membership)
  obtain ⟨first, others, letters, opens⟩ := exists_of_nameWritten (.bare nonempty bare)
  have isBare : BareCharacter first := bare first (by rw [letters]; exact List.mem_cons_self)
  have taken : (name.toList ++ rest).takeWhile isBareKeyCharacter = name.toList := by
    rw [List.takeWhile_append_of_pos all]
    cases rest with
    | nil => rw [List.takeWhile_nil, List.append_nil]
    | cons character rest =>
        rw [List.takeWhile_cons_of_neg (by simp [stops character rfl]), List.append_nil]
  have dropped : (name.toList ++ rest).dropWhile isBareKeyCharacter = rest := by
    rw [List.dropWhile_append_of_pos all]
    cases rest with
    | nil => rfl
    | cons character rest => rw [List.dropWhile_cons_of_neg (by simp [stops character rfl])]
  unfold readName
  split
  · next same =>
      rw [letters] at same
      exact absurd (List.cons.inj same).1 (isBare.ne rfl)
  · next same =>
      rw [letters] at same
      exact absurd (List.cons.inj same).1 (isBare.ne rfl)
  · have nonempty : name.toList.isEmpty = false := by
      rw [letters]
      rfl
    simp only [taken, dropped, nonempty, Bool.false_eq_true, if_false, String.ofList_toList]

theorem readName_written (written : NameWritten name letters)
    (stops : ∀ character ∈ rest.head?, isBareKeyCharacter character = false) :
    readName (letters ++ rest) = .ok (name, rest) := by
  have packed : (Reading.map String.ofList (.ok (name.toList, rest))) = .ok (name, rest) := by
    rw [Reading.map, String.ofList_toList]
  cases written with
  | bare nonempty bare => exact readName_bare nonempty bare stops
  | @quoted form body single isBody =>
      rw [List.cons_append, List.append_assoc, ← packed]
      cases form with
      | basic => exact congrArg (Reading.map String.ofList) (basicBody_of_body isBody rest)
      | literal => exact congrArg (Reading.map String.ofList) (literalBody_of_body isBody rest)
      | multilineBasic => cases single
      | multilineLiteral => cases single

theorem readKeyWithin_blanks (blanks : Blanks front) (depth : Nat) (text : List Char) :
    readKeyWithin depth (front ++ text) = readKeyWithin depth text := by
  cases depth with
  | zero => rfl
  | succ depth => rw [readKeyWithin, readKeyWithin, skipBlanks_append blanks]

theorem head?_blanks_append (blanks : Blanks front) (character : Char) (rest : List Char) :
    ∀ first ∈ (front ++ character :: rest).head?, first ∈ [' ', '\t', character] := by
  intro first isFirst
  cases front with
  | nil => simp_all
  | cons blank front =>
      obtain rfl : blank = first := Option.some.inj isFirst
      rcases blanks blank List.mem_cons_self with rfl | rfl <;> simp

/-- A key ends at an equals sign or a closing bracket. -/
theorem readKeyWithin_written (written : KeyWritten key letters) (fits : key.path.length < depth)
    (blanks : Blanks behind) (ends : character = '=' ∨ character = ']') (rest : List Char) :
    readKeyWithin depth (letters ++ (behind ++ character :: rest)) =
      .ok (key, character :: rest) := by
  have stops (between others : List Char) (isBlanks : Blanks between) (mark : Char)
      (isMark : mark ∈ ['=', ']', '.']) :
      ∀ first ∈ (between ++ mark :: others).head?, isBareKeyCharacter first = false := by
    intro first isFirst
    have possible := head?_blanks_append isBlanks mark others first isFirst
    have all : (['=', ']', '.'].all fun mark => [' ', '\t', mark].all fun first =>
        !isBareKeyCharacter first) = true := by decide
    simpa using List.all_eq_true.mp (List.all_eq_true.mp all mark isMark) first possible
  have solid : Solid character := by
    rcases ends with rfl | rfl <;> unfold Solid <;> decide
  induction written generalizing depth with
  | @last name letters named =>
      cases depth with
      | zero => cases fits
      | succ depth =>
          obtain ⟨first, others, rfl, opens⟩ := exists_of_nameWritten named
          rw [readKeyWithin, List.cons_append, skipBlanks_of_solid opens.solid, ← List.cons_append,
            readName_written named (stops behind rest blanks character (by simp_all; tauto))]
          simp only [skipBlanks_append blanks, skipBlanks_of_solid solid]
          split
          · next same =>
              rw [(List.cons.inj same).1] at ends
              rcases ends with same | same <;> cases same
          · rfl
  | @dotted name key letters before between others named isBefore isBetween written
      inductionHypothesis =>
      cases depth with
      | zero => cases fits
      | succ depth =>
          have parts : letters ++ (before ++ '.' :: (between ++ others)) ++
              (behind ++ character :: rest) =
              letters ++
                (before ++ '.' :: (between ++ (others ++ (behind ++ character :: rest)))) := by
            simp
          obtain ⟨first, more, rfl, opens⟩ := exists_of_nameWritten named
          have further := inductionHypothesis (Nat.lt_of_succ_lt_succ fits)
          have point : Solid '.' := by unfold Solid; decide
          rw [parts, readKeyWithin, List.cons_append, skipBlanks_of_solid opens.solid,
            ← List.cons_append, readName_written named (stops before _ isBefore '.' (by simp))]
          simp only [skipBlanks_append isBefore, skipBlanks_of_solid point,
            readKeyWithin_blanks isBetween, further]
          rfl

/-- A key with blanks around it. -/
theorem readKey_written (written : KeyWritten key letters) (fits : key.path.length < depthLimit)
    (isFront : Blanks front) (isBehind : Blanks behind) (ends : character = '=' ∨ character = ']')
    (rest : List Char) :
    readKey (front ++ (letters ++ (behind ++ character :: rest))) =
      .ok (key, character :: rest) := by
  rw [readKey, readKeyWithin_blanks isFront, readKeyWithin_written written fits isBehind ends]

theorem readAssignment_assigned (item : List Char → Reading Value)
    (assigned : Assigned key value letters) (fits : key.path.length < depthLimit)
    (isFront : Blanks front) (begins : ∃ first others, value = first :: others ∧ Solid first)
    (rest : List Char) :
    readAssignment item (front ++ (letters ++ rest)) =
      (item (value ++ rest)).map fun value => (key, value) := by
  obtain ⟨first, others, rfl, solid⟩ := begins
  cases assigned with
  | @intro name before behind written isBefore isBehind =>
      have parts : front ++ (name ++ (before ++ '=' :: (behind ++ first :: others)) ++ rest) =
          front ++ (name ++ (before ++ '=' :: (behind ++ first :: (others ++ rest)))) := by
        simp
      have read := readKey_written written fits isFront isBefore (.inl rfl)
        (behind ++ first :: (others ++ rest))
      rw [readAssignment, parts, read]
      simp only [skipBlanks_append isBehind, skipBlanks_of_solid solid]
      rfl

/-! ### Lists of strings -/

theorem readValueWithin_text {text : String} (written : TextWritten text letters)
    (ends : Ends rest) (depth : Nat) :
    readValueWithin depth (letters ++ rest) = .ok (.string text, rest) := by
  have read := readText_written written ends
  obtain ⟨form, others, rfl⟩ := exists_of_textWritten written
  have dispatches : readValueWithin depth (form.delimiter :: others ++ rest) =
      (readText (form.delimiter :: others ++ rest)).map .string := by
    cases form <;> cases depth <;> rfl
  rw [dispatches, read]
  rfl

theorem ends_gap {gap : List Char} (isGap : Gap true gap)
    (mark : character = ',' ∨ character = ']') (rest : List Char) :
    Ends (gap ++ character :: rest) := by
  intro first isFirst
  rcases head?_gap_append isGap _ first isFirst with possible | isMark
  · simp only [List.mem_cons, List.not_mem_nil, or_false] at possible ⊢
    tauto
  · obtain rfl : character = first := Option.some.inj isMark
    rcases mark with rfl | rfl <;> simp

/-- One string of a list. Behind it there is a comma or the end of the list. -/
theorem readItems_text {text : String} {gap : List Char} (isFront : Gap true front)
    (written : TextWritten text letters) (isGap : Gap true gap) (depth fuel : Nat)
    (rest : List Char) :
    readItems (readValueWithin depth) (fuel + 1) (front ++ (letters ++ (gap ++ ',' :: rest))) =
        (readItems (readValueWithin depth) fuel rest).map (.string text :: ·) ∧
      readItems (readValueWithin depth) (fuel + 1) (front ++ (letters ++ (gap ++ ']' :: rest))) =
        .ok ([.string text], rest) := by
  have comma : Solid ',' := by unfold Solid; decide
  have bracket : Solid ']' := by unfold Solid; decide
  have read {mark : Char} (isMark : mark = ',' ∨ mark = ']') :=
    readValueWithin_text written (ends_gap isGap isMark rest) depth
  obtain ⟨form, others, rfl⟩ := exists_of_textWritten written
  have noEnd : form.delimiter ≠ ']' := by cases form <;> decide
  constructor
  · rw [readItems, skipLines_gap isFront, List.cons_append, skipLines_of_solid form.solid_delimiter]
    split
    · next same => exact absurd (List.cons.inj same).1 noEnd
    · rw [← List.cons_append, read (.inl rfl)]
      simp only [skipLines_gap isGap, skipLines_of_solid comma]
  · rw [readItems, skipLines_gap isFront, List.cons_append, skipLines_of_solid form.solid_delimiter]
    split
    · next same => exact absurd (List.cons.inj same).1 noEnd
    · rw [← List.cons_append, read (.inr rfl)]
      simp only [skipLines_gap isGap, skipLines_of_solid bracket]

theorem length_le_of_itemsWritten {values : List String} (written : ItemsWritten values letters) :
    values.length ≤ letters.length := by
  induction written with
  | nil => exact Nat.zero_le _
  | last =>
      simp only [List.length_append, List.length_cons, List.length_nil]
      omega
  | next _ _ _ _ inductionHypothesis =>
      simp only [List.length_append, List.length_cons]
      omega

theorem readItems_written {values : List String} (written : ItemsWritten values letters)
    (enough : values.length < fuel) (depth : Nat) (rest : List Char) :
    readItems (readValueWithin depth) fuel (letters ++ rest) = .ok (values.map .string, rest) := by
  induction written generalizing fuel with
  | nil isGap =>
      obtain ⟨fuel, rfl⟩ := Nat.exists_eq_add_of_lt enough
      have bracket : Solid ']' := by unfold Solid; decide
      rw [List.append_assoc, List.length_nil, Nat.zero_add, readItems, skipLines_gap isGap,
        List.singleton_append, skipLines_of_solid bracket]
      rfl
  | last isFront text isGap =>
      cases fuel with
      | zero => cases enough
      | succ fuel =>
          simpa using (readItems_text isFront text isGap depth fuel rest).2
  | @next value values before letters behind others isFront text isGap written
      inductionHypothesis =>
      cases fuel with
      | zero => cases enough
      | succ fuel =>
          have further := inductionHypothesis (Nat.lt_of_succ_lt_succ enough)
          have parts : before ++ (letters ++ (behind ++ ',' :: others)) ++ rest =
              before ++ (letters ++ (behind ++ ',' :: (others ++ rest))) := by
            simp
          rw [parts, (readItems_text isFront text isGap depth fuel (others ++ rest)).1, further]
          rfl

/-! ### Settings -/

theorem exists_of_naturalWritten {value : Nat} (written : NaturalWritten value letters) :
    ∃ first others, letters = first :: others ∧ (first = '+' ∨ first = '-' ∨
      first.isDigit = true) := by
  cases written with
  | decimal isSign digits =>
      rcases isSign with rfl | rfl
      · obtain ⟨_, digit, others, isDigit, rfl⟩ := exists_of_digits digits
        exact ⟨digit, others, rfl, .inr (.inr (isDigit_of_decimal isDigit))⟩
      · exact ⟨_, _, rfl, .inl rfl⟩
  | negativeZero => exact ⟨_, _, rfl, .inr (.inl rfl)⟩
  | radix => exact ⟨_, _, rfl, .inr (.inr rfl)⟩

theorem readValueWithin_natural {value : Nat} (written : NaturalWritten value letters)
    (inRange : value < 2 ^ 63) (ends : Ends rest) (depth : Nat) :
    readValueWithin depth (letters ++ rest) = .ok (.integer value, rest) := by
  have read := readDigits_written written inRange ends
  obtain ⟨first, others, rfl, numeric⟩ := exists_of_naturalWritten written
  have different {other : Char} (noDigit : other.isDigit = false) (noPlus : other ≠ '+')
      (noMinus : other ≠ '-') : first ≠ other := by
    rcases numeric with rfl | rfl | isDigit
    · exact noPlus.symm
    · exact noMinus.symm
    · exact Text.ne_of_class Char.isDigit isDigit noDigit
  rw [← read, List.cons_append]
  unfold readValueWithin
  split
  · next same => exact absurd (List.cons.inj same).1 (different rfl (by decide) (by decide))
  · next same => exact absurd (List.cons.inj same).1 (different rfl (by decide) (by decide))
  · next same => exact absurd (List.cons.inj same).1 (different rfl (by decide) (by decide))
  · next same => exact absurd (List.cons.inj same).1 (different rfl (by decide) (by decide))
  · next same => exact absurd (List.cons.inj same).1 (different rfl (by decide) (by decide))
  · next same => exact absurd (List.cons.inj same).1 (different rfl (by decide) (by decide))
  · rfl

theorem readValueWithin_setting {setting : Setting} (written : setting.Written letters)
    (ends : Ends rest) (depth : Nat) :
    readValueWithin (depth + 1) (letters ++ rest) = .ok (setting.toValue, rest) := by
  cases written with
  | holds => rfl
  | fails => rfl
  | natural inRange natural => exact readValueWithin_natural natural inRange ends _
  | text text => exact readValueWithin_text text ends _
  | @texts values letters items =>
      have enough : values.length < (letters ++ rest).length + 1 := by
        have shorter := length_le_of_itemsWritten items
        rw [List.length_append]
        omega
      have read := readItems_written items enough depth rest
      have dispatches : readValueWithin (depth + 1) ('[' :: letters ++ rest) =
          (readItems (readValueWithin depth) ((letters ++ rest).length + 1)
            (letters ++ rest)).map .array := rfl
      rw [dispatches, read]
      rfl

theorem exists_of_settingWritten {setting : Setting} (written : setting.Written letters) :
    ∃ first others, letters = first :: others ∧ Solid first := by
  cases written with
  | holds => exact ⟨_, _, rfl, by unfold Solid; decide⟩
  | fails => exact ⟨_, _, rfl, by unfold Solid; decide⟩
  | natural _ natural =>
      obtain ⟨first, others, rfl, numeric⟩ := exists_of_naturalWritten natural
      refine ⟨first, others, rfl, ?_⟩
      rcases numeric with rfl | rfl | isDigit
      · unfold Solid; decide
      · unfold Solid; decide
      · apply BareCharacter.solid
        rw [← isBareKeyCharacter_iff]
        simp [isBareKeyCharacter, Char.isAlphanum, isDigit]
  | text text =>
      obtain ⟨form, others, rfl⟩ := exists_of_textWritten text
      exact ⟨_, _, rfl, form.solid_delimiter⟩
  | texts => exact ⟨_, _, rfl, by unfold Solid; decide⟩

/-! ### Inline tables -/

theorem ends_blanks (blanks : Blanks front) (mark : character = ',' ∨ character = '\x7d')
    (rest : List Char) : Ends (front ++ character :: rest) := by
  intro first isFirst
  have possible := head?_blanks_append blanks character rest first isFirst
  rcases mark with rfl | rfl <;> simp_all <;> tauto

/-- The members that are read. -/
def memberValues (members : List (Key × Setting)) : List (Key × Value) :=
  members.map fun member => (member.1, member.2.toValue)

theorem length_le_of_membersWritten {members : List (Key × Setting)}
    (written : MembersWritten members letters) : members.length ≤ letters.length := by
  induction written with
  | last =>
      simp only [List.length_append, List.length_cons, List.length_nil]
      omega
  | next _ _ _ _ _ inductionHypothesis =>
      simp only [List.length_append, List.length_cons]
      omega

theorem readMembers_written {members : List (Key × Setting)}
    (written : MembersWritten members letters)
    (fits : ∀ member ∈ members, member.1.path.length < depthLimit)
    (enough : members.length ≤ fuel) (depth : Nat) (rest : List Char) :
    readMembers (readValueWithin (depth + 1)) fuel (letters ++ rest) =
      .ok (memberValues members, rest) := by
  have comma : Solid ',' := by unfold Solid; decide
  have brace : Solid '\x7d' := by unfold Solid; decide
  induction written generalizing fuel with
  | @last key setting value before letters behind isFront written assigned isBehind =>
      cases fuel with
      | zero => cases enough
      | succ fuel =>
          have parts : before ++ (letters ++ (behind ++ ['\x7d'])) ++ rest =
              before ++ (letters ++ (behind ++ '\x7d' :: rest)) := by
            simp
          rw [parts, readMembers, readAssignment_assigned _ assigned (fits _ List.mem_cons_self)
            isFront (exists_of_settingWritten written),
            readValueWithin_setting written (ends_blanks isBehind (.inr rfl) rest)]
          simp only [Reading.map, skipBlanks_append isBehind, skipBlanks_of_solid brace]
          rfl
  | @next key setting members value before letters behind others isFront written assigned isBehind
      _ inductionHypothesis =>
      cases fuel with
      | zero => cases enough
      | succ fuel =>
          have parts : before ++ (letters ++ (behind ++ ',' :: others)) ++ rest =
              before ++ (letters ++ (behind ++ ',' :: (others ++ rest))) := by
            simp
          have further := inductionHypothesis
            (fun member membership => fits member (List.mem_cons_of_mem _ membership))
            (Nat.le_of_succ_le_succ enough)
          rw [parts, readMembers, readAssignment_assigned _ assigned (fits _ List.mem_cons_self)
            isFront (exists_of_settingWritten written),
            readValueWithin_setting written (ends_blanks isBehind (.inl rfl) (others ++ rest))]
          simp only [Reading.map, skipBlanks_append isBehind, skipBlanks_of_solid comma, further]
          rfl

/-- The first member begins with its key, so that it is not taken for the closing brace. -/
theorem skipBlanks_ne_of_membersWritten {members : List (Key × Setting)}
    (written : MembersWritten members letters) (rest more : List Char) :
    skipBlanks (letters ++ rest) ≠ '\x7d' :: more := by
  have begins {key : Key} {value front letters : List Char} (isFront : Blanks front)
      (assigned : Assigned key value letters) (rest : List Char) :
      skipBlanks (front ++ (letters ++ rest)) ≠ '\x7d' :: more := by
    obtain ⟨first, others, rfl, opens⟩ := exists_of_assigned assigned
    rw [skipBlanks_append isFront, List.cons_append, skipBlanks_of_solid opens.solid]
    intro same
    exact opens.ne rfl (by decide) (by decide) (List.cons.inj same).1
  cases written with
  | last isFront _ assigned => simpa using begins isFront assigned _
  | next isFront _ assigned => simpa using begins isFront assigned _

/-- The value that some content is read as, if an inline table is well formed. -/
def Content.toValue : Content → Except Problem Value
  | .setting value => .ok value.toValue
  | .inlineTable members => tableOfMembers (memberValues members)

/-- Whether no key is longer than the reader allows. -/
def Content.Fits : Content → Prop
  | .setting _ => True
  | .inlineTable members => ∀ member ∈ members, member.1.path.length < depthLimit

theorem readValue_content {content : Content} {value : Value} (written : content.Written letters)
    (fits : content.Fits) (isValue : content.toValue = .ok value) (ends : Ends rest) :
    readValue (letters ++ rest) = .ok (value, rest) := by
  have brace : Solid '\x7d' := by unfold Solid; decide
  have dispatches (letters : List Char) : readValue ('\x7b' :: letters) =
      readInlineTable (readValueWithin 78) letters := rfl
  cases written with
  | setting written =>
      cases isValue
      exact readValueWithin_setting written ends 78
  | empty isBlanks =>
      cases isValue
      rw [List.cons_append, List.append_assoc, dispatches, readInlineTable,
        skipBlanks_append isBlanks, List.singleton_append, skipBlanks_of_solid brace]
      rfl
  | @inlineTable members letters written =>
      have enough : members.length ≤ (letters ++ rest).length + 1 := by
        have shorter := length_le_of_membersWritten written
        rw [List.length_append]
        omega
      have read := readMembers_written written fits enough 77 rest
      have notEmpty := skipBlanks_ne_of_membersWritten written rest
      rw [List.cons_append, dispatches]
      unfold readInlineTable
      split
      · next same => exact absurd same (notEmpty _)
      · have built : tableOfMembers (memberValues members) = .ok value := isValue
        rw [read]
        simp only [built]

end Tokenizer.Toml
