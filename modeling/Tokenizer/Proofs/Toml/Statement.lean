import Tokenizer.Proofs.Toml.Value

/-!
The statements of a document are read one after the other, whatever their forms and whatever stands
between them.
-/

namespace Tokenizer.Toml

variable {clause : Clause} {clauses : List Clause} {statement : Statement} {fuel : Nat}
  {content : Content} {letters remark ending rest : List Char}

/-! ### Statements -/

/-- The statement that is read, if the inline tables in it are well formed. -/
def Clause.toStatement : Clause → Except Problem Statement
  | .assignment key content => content.toValue.map (.assignment key)
  | .header key => .ok (.table key)

/-- Whether no key is longer than the reader allows. -/
def Clause.Fits : Clause → Prop
  | .assignment key content => key.path.length < depthLimit ∧ content.Fits
  | .header key => key.path.length < depthLimit

theorem exists_of_map_eq_ok {Item Other : Type} {change : Item → Other}
    {outcome : Except Problem Item} {result : Other} (mapped : outcome.map change = .ok result) :
    ∃ item, outcome = .ok item ∧ change item = result := by
  cases outcome with
  | error problem => cases mapped
  | ok item => exact ⟨item, rfl, Except.ok.inj mapped⟩

theorem exists_of_contentWritten (written : content.Written letters) :
    ∃ first others, letters = first :: others ∧ Solid first := by
  cases written with
  | setting written => exact exists_of_settingWritten written
  | empty => exact ⟨_, _, rfl, by unfold Solid; decide⟩
  | inlineTable => exact ⟨_, _, rfl, by unfold Solid; decide⟩

theorem exists_of_clauseWritten (written : clause.Written letters) :
    ∃ first others, letters = first :: others ∧ (Opens first ∨ first = '[') := by
  cases written with
  | assignment _ assigned =>
      obtain ⟨first, others, rfl, opens⟩ := exists_of_assigned assigned
      exact ⟨first, others, rfl, .inl opens⟩
  | header => exact ⟨_, _, rfl, .inr rfl⟩

/-- What stands behind a statement ends a value and is no closing bracket. -/
theorem ends_remark (isRemark : Remark remark) (isEnd : LineEnd ending ∨ ending = [] ∧ rest = []) :
    ∀ first ∈ (remark ++ (ending ++ rest)).head?, first ∈ [' ', '\t', '\n', '\r', '#'] := by
  obtain ⟨blanks, comment, rfl, isBlanks, isComment⟩ := isRemark
  intro first isFirst
  cases blanks with
  | cons blank blanks =>
      obtain rfl : blank = first := Option.some.inj isFirst
      rcases isBlanks blank List.mem_cons_self with rfl | rfl <;> simp
  | nil =>
      rcases isComment with rfl | ⟨remark, rfl, _⟩
      · rcases isEnd with (rfl | rfl) | ⟨rfl, rfl⟩
        · obtain rfl := Option.some.inj isFirst
          simp
        · obtain rfl := Option.some.inj isFirst
          simp
        · cases isFirst
      · obtain rfl := Option.some.inj isFirst
        simp

theorem readStatement_assignment {key : Key} {value tail : List Char} {outcome : Value}
    (written : content.Written value) (assigned : Assigned key value letters)
    (fits : (Clause.assignment key content).Fits) (isValue : content.toValue = .ok outcome)
    (ends : Ends tail) (finishes : endOfLine tail = .ok ((), rest)) :
    readStatement (letters ++ tail) = .ok (.assignment key outcome, rest) := by
  have read : readAssignment readValue ([] ++ (letters ++ tail)) = _ :=
    readAssignment_assigned readValue assigned fits.1
      (fun _ membership => by cases membership) (exists_of_contentWritten written) tail
  rw [readValue_content written fits.2 isValue ends, List.nil_append] at read
  obtain ⟨first, others, rfl, opens⟩ := exists_of_assigned assigned
  have noBracket : first ≠ '[' := opens.ne rfl (by decide) (by decide)
  unfold readStatement
  split
  · next same => exact absurd (List.cons.inj same).1 noBracket
  · next same => exact absurd (List.cons.inj same).1 noBracket
  · rw [read]
    simp only [Reading.map, finishes]

theorem closeHeader_of_ne {tail : List Char} (single : tail.head? ≠ some ']') :
    closeHeader false (']' :: tail) = some tail := by
  unfold closeHeader
  split
  · next same =>
      rw [(List.cons.inj same).2] at single
      exact absurd rfl single
  · next same => rw [(List.cons.inj same).2]; rfl
  · next _ none => exact absurd rfl (none tail)

theorem readStatement_header {key : Key} {before between tail : List Char}
    (isBefore : Blanks before) (written : KeyWritten key letters) (isBetween : Blanks between)
    (fits : key.path.length < depthLimit) (single : tail.head? ≠ some ']')
    (finishes : endOfLine tail = .ok ((), rest)) :
    readStatement ('[' :: (before ++ (letters ++ (between ++ ']' :: tail)))) =
      .ok (.table key, rest) := by
  have read : readHeader false (before ++ (letters ++ (between ++ ']' :: tail))) =
      .ok (.table key, rest) := by
    rw [readHeader, readKey_written written fits isBefore isBetween (.inr rfl)]
    simp only [closeHeader_of_ne single, finishes]
    rfl
  obtain ⟨first, others, rfl, opens⟩ := exists_of_keyWritten written
  have noBracket : ∀ more, before ++ (first :: others ++ (between ++ ']' :: tail)) ≠
      '[' :: more := by
    intro more same
    have possible := head?_blanks_append isBefore first (others ++ (between ++ ']' :: tail)) '['
      (congrArg List.head? same)
    simp only [List.mem_cons, List.not_mem_nil, or_false] at possible
    rcases possible with impossible | impossible | isFirst
    · cases impossible
    · cases impossible
    · exact opens.ne rfl (by decide) (by decide) isFirst.symm
  rw [← read]
  unfold readStatement
  split
  · next same => exact absurd (List.cons.inj same).2 (noBracket _)
  · next same => rw [(List.cons.inj same).2]
  · next noHeader => exact absurd rfl (noHeader _)

theorem readStatement_written (written : clause.Written letters) (fits : clause.Fits)
    (isStatement : clause.toStatement = .ok statement) (isRemark : Remark remark)
    (isEnd : LineEnd ending ∨ ending = [] ∧ rest = []) :
    readStatement (letters ++ (remark ++ (ending ++ rest))) = .ok (statement, rest) := by
  have behind := ends_remark isRemark isEnd
  have finishes := endOfLine_remark isRemark isEnd
  cases written with
  | assignment written assigned =>
      obtain ⟨value, isValue, rfl⟩ := exists_of_map_eq_ok isStatement
      have ends : Ends (remark ++ (ending ++ rest)) := fun first isFirst => by
        have possible := behind first isFirst
        simp only [List.mem_cons, List.not_mem_nil, or_false] at possible ⊢
        tauto
      exact readStatement_assignment written assigned fits isValue ends finishes
  | header isBefore written isBetween =>
      cases isStatement
      have single : (remark ++ (ending ++ rest)).head? ≠ some ']' := fun same => by
        simpa using behind ']' same
      rw [← readStatement_header isBefore written isBetween fits single finishes]
      simp

/-! ### Lines -/

theorem gap_of_blanks {blanks : List Char} (isBlanks : Blanks blanks) : Gap true blanks := by
  induction blanks with
  | nil => exact .nil
  | cons character blanks inductionHypothesis =>
      exact .blank (isBlanks character List.mem_cons_self) (inductionHypothesis
        fun character membership => isBlanks character (List.mem_cons_of_mem _ membership))

theorem skipLines_remark (isRemark : Remark remark) : skipLines remark = [] := by
  obtain ⟨blanks, comment, rfl, isBlanks, isComment⟩ := isRemark
  rw [skipLines_gap (gap_of_blanks isBlanks)]
  rcases isComment with rfl | isComment
  · rw [skipLines]
  · have skipped : skipLines (comment ++ ([] ++ [])) = skipLines ([] ++ []) :=
      skipLines_comment isComment (.inr ⟨rfl, rfl⟩)
    rw [List.append_nil, List.append_nil] at skipped
    rw [skipped, skipLines]

theorem readStatements_step {gap : List Char} (isGap : Gap true gap)
    (written : clause.Written letters) (fits : clause.Fits)
    (isStatement : clause.toStatement = .ok statement) (isRemark : Remark remark)
    (isEnd : LineEnd ending ∨ ending = [] ∧ rest = []) :
    readStatements (fuel + 1) (gap ++ (letters ++ (remark ++ (ending ++ rest)))) =
      (readStatements fuel rest).map (statement :: ·) := by
  have read := readStatement_written written fits isStatement isRemark isEnd
  obtain ⟨first, others, rfl, begins⟩ := exists_of_clauseWritten written
  have solid : Solid first := by
    rcases begins with opens | rfl
    · exact opens.solid
    · unfold Solid
      decide
  rw [readStatements, skipLines_gap isGap, List.cons_append, skipLines_of_solid solid]
  simp only [← List.cons_append, read]

theorem readStatements_written {statements : List Statement}
    (written : DocumentWritten clauses letters) (fits : ∀ clause ∈ clauses, clause.Fits)
    (areStatements : List.Forall₂ (fun clause statement => clause.toStatement = .ok statement)
      clauses statements) (enough : clauses.length < fuel) :
    readStatements fuel letters = .ok statements := by
  induction written generalizing statements fuel with
  | nil isGap isRemark =>
      obtain ⟨fuel, rfl⟩ := Nat.exists_eq_add_of_lt enough
      cases areStatements
      rw [List.length_nil, Nat.zero_add, readStatements, skipLines_gap isGap,
        skipLines_remark isRemark]
  | @last clause gap letters remark isGap written isRemark =>
      cases fuel with
      | zero => cases enough
      | succ fuel =>
          obtain _ | ⟨isStatement, rest⟩ := areStatements
          cases rest
          have step := @readStatements_step clause _ fuel letters remark [] [] gap isGap written
            (fits _ List.mem_cons_self) isStatement isRemark (.inr ⟨rfl, rfl⟩)
          obtain ⟨fuel, rfl⟩ := Nat.exists_eq_add_of_lt (Nat.lt_of_succ_lt_succ enough)
          rw [List.append_nil, List.append_nil] at step
          rw [step]
          simp only [readStatements, skipLines]
          rfl
  | @next clause clauses gap letters remark ending others isGap written isRemark isEnd _
      inductionHypothesis =>
      cases fuel with
      | zero => cases enough
      | succ fuel =>
          obtain _ | ⟨isStatement, rest⟩ := areStatements
          have further := inductionHypothesis
            (fun clause membership => fits clause (List.mem_cons_of_mem _ membership)) rest
            (Nat.lt_of_succ_lt_succ enough)
          rw [readStatements_step isGap written (fits _ List.mem_cons_self) isStatement isRemark
            (.inl isEnd), further]
          rfl

theorem length_le_of_documentWritten (written : DocumentWritten clauses letters) :
    clauses.length ≤ letters.length := by
  induction written with
  | nil => exact Nat.zero_le _
  | last _ written _ =>
      obtain ⟨first, others, rfl, _⟩ := exists_of_clauseWritten written
      simp only [List.length_append, List.length_cons, List.length_nil]
      omega
  | next _ written _ _ _ inductionHypothesis =>
      obtain ⟨first, others, rfl, _⟩ := exists_of_clauseWritten written
      simp only [List.length_append, List.length_cons]
      omega

/-- No document begins with a byte order mark. -/
theorem head?_ne_of_documentWritten (written : DocumentWritten clauses letters) :
    letters.head? ≠ some '\ufeff' := by
  have outside : '\ufeff' ∉ [' ', '\t', '\n', '\r', '#'] := by decide
  have noClause {gap rest : List Char} {clause : Clause} {letters : List Char}
      (isGap : Gap true gap) (written : clause.Written letters) :
      (gap ++ (letters ++ rest)).head? ≠ some '\ufeff' := by
    intro marked
    obtain ⟨first, others, rfl, begins⟩ := exists_of_clauseWritten written
    rcases head?_gap_append isGap _ _ marked with inGap | isFirst
    · exact outside inGap
    · obtain rfl : first = '\ufeff' := Option.some.inj isFirst
      rcases begins with opens | impossible
      · exact opens.ne rfl (by decide) (by decide) rfl
      · cases impossible
  cases written with
  | last isGap written => exact noClause isGap written
  | next isGap written => exact noClause isGap written
  | @nil gap remark isGap isRemark =>
      intro marked
      rcases head?_gap_append isGap _ _ marked with inGap | inRemark
      · exact outside inGap
      · have possible := @ends_remark remark [] [] isRemark (.inr ⟨rfl, rfl⟩) '\ufeff'
        rw [List.append_nil, List.append_nil] at possible
        exact outside (possible inRemark)

end Tokenizer.Toml
