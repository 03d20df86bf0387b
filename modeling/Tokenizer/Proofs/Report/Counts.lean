import Tokenizer.Proofs.Report.Lossless
import Tokenizer.Proofs.Scanner.Scans

/-!
The counts in a summary.

A tally that counts some labels counts one label more after it has been added. So the summary of
a report counts the labels of all its entries, in both layouts. What a run can emit then says
which labels these are.
-/

namespace Tokenizer

namespace Tally

variable {tally : Tally} {label : String} {labels : List String}

def names (tally : Tally) : List String :=
  tally.map Prod.fst

/-- The sum of the counts. -/
def total : Tally → Nat
  | [] => 0
  | (_, count) :: rest => count + total rest

/-- How often a label was seen. -/
def countOf (label : String) (tally : Tally) : Nat :=
  (tally.lookup label).getD 0

/-- A tally of some labels has each of them once, in the order in which they occur first, with
the number of its occurrences. -/
structure Counts (tally : Tally) (labels : List String) : Prop where
  mem_names_iff : ∀ label, label ∈ tally.names ↔ label ∈ labels
  ordered : tally.names.Pairwise fun former latter => labels.idxOf former < labels.idxOf latter
  countOf : ∀ label, tally.countOf label = labels.count label

/-! ### One label more -/

theorem countOf_cons (label seen : String) (count : Nat) (rest : Tally) :
    countOf label ((seen, count) :: rest) = if label = seen then count else countOf label rest := by
  rw [countOf, List.lookup_cons]
  by_cases same : label = seen
  · simp [same]
  · have differs : (label == seen) = false := beq_false_of_ne same
    simp only [differs, if_neg same, countOf]

theorem add_cons (label seen : String) (count : Nat) (rest : Tally) :
    add label ((seen, count) :: rest) =
      if seen = label then (seen, count + 1) :: rest else (seen, count) :: add label rest := by
  simp only [add, beq_iff_eq]

theorem add_of_not_mem (unknown : label ∉ tally.names) :
    tally.add label = tally ++ [(label, 1)] := by
  induction tally with
  | nil => rfl
  | cons counted rest inductionHypothesis =>
      have different : counted.1 ≠ label := by
        rintro rfl
        exact unknown List.mem_cons_self
      have unknownStill : label ∉ names rest :=
        fun known => unknown (List.mem_cons_of_mem counted.1 known)
      rw [add_cons, if_neg different, inductionHypothesis unknownStill, List.cons_append]

theorem names_add_of_mem (known : label ∈ tally.names) : (tally.add label).names = tally.names := by
  induction tally with
  | nil => cases known
  | cons counted rest inductionHypothesis =>
      rw [add_cons]
      split
      · rfl
      · next different =>
          have knownStill : label ∈ names rest := List.mem_of_ne_of_mem (Ne.symm different) known
          exact congrArg (counted.1 :: ·) (inductionHypothesis knownStill)

theorem countOf_add (label other : String) (tally : Tally) :
    (tally.add label).countOf other = tally.countOf other + if other = label then 1 else 0 := by
  induction tally with
  | nil => exact (countOf_cons other label 1 []).trans (Nat.zero_add _).symm
  | cons counted rest inductionHypothesis =>
      obtain ⟨seen, count⟩ := counted
      rw [add_cons]
      by_cases same : seen = label
      · subst same
        rw [if_pos rfl, countOf_cons, countOf_cons]
        split <;> rfl
      · rw [if_neg same, countOf_cons, countOf_cons, inductionHypothesis]
        by_cases found : other = seen
        · have different : ¬other = label := fun equal => same (found.symm.trans equal)
          rw [if_pos found, if_pos found, if_neg different, Nat.add_zero]
        · rw [if_neg found, if_neg found]

theorem countOf_of_mem {counted : String × Nat} (nodup : tally.names.Nodup)
    (membership : counted ∈ tally) : tally.countOf counted.1 = counted.2 := by
  induction tally with
  | nil => cases membership
  | cons first rest inductionHypothesis =>
      obtain ⟨fresh, nodupStill⟩ := List.nodup_cons.mp nodup
      rw [countOf_cons]
      rcases List.mem_cons.mp membership with rfl | inRest
      · rw [if_pos rfl]
      · have different : counted.1 ≠ first.1 := by
          intro same
          exact fresh (same ▸ List.mem_map_of_mem inRest)
        rw [if_neg different, inductionHypothesis nodupStill inRest]

theorem total_add (label : String) (tally : Tally) : (tally.add label).total = tally.total + 1 := by
  induction tally with
  | nil => rfl
  | cons counted rest inductionHypothesis =>
      obtain ⟨seen, count⟩ := counted
      rw [add_cons]
      split
      · rw [total, total]
        omega
      · rw [total, total, inductionHypothesis, Nat.add_assoc]

namespace Counts

theorem nil : Counts [] [] :=
  ⟨fun _ => Iff.rfl, .nil, fun _ => rfl⟩

theorem nodup (counts : tally.Counts labels) : tally.names.Nodup :=
  counts.ordered.imp fun {_ _} earlier same => Nat.ne_of_lt earlier (congrArg labels.idxOf same)

theorem add (counts : tally.Counts labels) (label : String) :
    (tally.add label).Counts (labels ++ [label]) := by
  have orderedStill : tally.names.Pairwise fun former latter =>
      (labels ++ [label]).idxOf former < (labels ++ [label]).idxOf latter := by
    refine counts.ordered.imp_of_mem ?_
    intro former latter formerKnown latterKnown earlier
    rwa [List.idxOf_append_of_mem ((counts.mem_names_iff former).mp formerKnown),
      List.idxOf_append_of_mem ((counts.mem_names_iff latter).mp latterKnown)]
  have countOf (other : String) :
      (tally.add label).countOf other = (labels ++ [label]).count other := by
    rw [countOf_add, counts.countOf, List.count_append, List.count_singleton]
    simp only [beq_iff_eq, @eq_comm _ label]
  by_cases known : label ∈ tally.names
  · have sameNames := names_add_of_mem known
    refine ⟨?_, ?_, countOf⟩
    · intro other
      rw [sameNames, counts.mem_names_iff, List.mem_append, List.mem_singleton]
      refine ⟨Or.inl, ?_⟩
      rintro (membership | rfl)
      · exact membership
      · exact (counts.mem_names_iff other).mp known
    · rwa [sameNames]
  · have moreNames : (tally.add label).names = tally.names ++ [label] := by
      rw [add_of_not_mem known, names, List.map_append]
      rfl
    refine ⟨?_, ?_, countOf⟩
    · intro other
      rw [moreNames, List.mem_append, List.mem_append, counts.mem_names_iff]
    · rw [moreNames, List.pairwise_append]
      refine ⟨orderedStill, List.pairwise_singleton _ _, ?_⟩
      -- A label that is new occurs first behind all that are known.
      intro former formerKnown latter isLast
      have seen := (counts.mem_names_iff former).mp formerKnown
      have unseen : label ∉ labels := mt (counts.mem_names_iff label).mpr known
      rw [List.mem_singleton.mp isLast, List.idxOf_append_of_mem seen,
        List.idxOf_append_of_notMem unseen]
      exact Nat.lt_add_right _ (List.idxOf_lt_length_of_mem seen)

theorem addAll (counts : tally.Counts labels) (entries : List Entry) :
    (tally.addAll entries).Counts (labels ++ entries.map Entry.label) := by
  induction entries generalizing tally labels with
  | nil => rwa [List.map_nil, List.append_nil]
  | cons entry entries inductionHypothesis =>
      have counted := inductionHypothesis (counts.add entry.label)
      rwa [List.append_assoc] at counted

theorem ofEntries (entries : List Entry) :
    (Tally.ofEntries entries).Counts (entries.map Entry.label) :=
  nil.addAll entries

theorem eq_count_of_mem (counts : tally.Counts labels) {counted : String × Nat}
    (membership : counted ∈ tally) : counted.2 = labels.count counted.1 := by
  have found : tally.countOf counted.1 = counted.2 := countOf_of_mem counts.nodup membership
  rw [← found, counts.countOf]

end Counts

theorem total_addAll (tally : Tally) (entries : List Entry) :
    (tally.addAll entries).total = tally.total + entries.length := by
  induction entries generalizing tally with
  | nil => rfl
  | cons entry entries inductionHypothesis =>
      have counted := inductionHypothesis (tally.add entry.label)
      rw [total_add] at counted
      rw [List.length_cons, Nat.add_comm entries.length, ← Nat.add_assoc]
      exact counted

end Tally

/-! ### The labels of a run -/

theorem Category.name_eq_end_iff (category : Category) :
    category.name = "END" ↔ category = .plain .finish := by
  rcases category with _ | kind
  · decide
  · cases kind <;> decide

namespace KeywordSet

/-- What an identifier is labelled with depends on the keywords, but no other token is labelled
like one. -/
theorem isIdentifier_iff (keywords : KeywordSet) (token : Token) :
    token.kind = .identifier ↔
      (keywords.classify token).name = "KEYWORD" ∨
        (keywords.classify token).name = "IDENTIFIER" := by
  rw [classify]
  split
  · next isKeyword =>
      simp only [Bool.and_eq_true, beq_iff_eq] at isKeyword
      simp [isKeyword.1, Category.name]
  · cases token.kind <;> decide

theorem count_identifiers (keywords : KeywordSet) (tokens : List Token) :
    let labels := (keywords.entries tokens).map Entry.label
    labels.count "KEYWORD" + labels.count "IDENTIFIER" =
      tokens.countP fun token => token.kind = .identifier := by
  induction tokens with
  | nil => rfl
  | cons token tokens inductionHypothesis =>
      have labels : (keywords.entries (token :: tokens)).map Entry.label =
          (keywords.classify token).name :: (keywords.entries tokens).map Entry.label := rfl
      have isIdentifier := keywords.isIdentifier_iff token
      simp only [labels, List.count_cons, List.countP_cons, ← inductionHypothesis, beq_iff_eq,
        decide_eq_true_eq]
      by_cases keyword : (keywords.classify token).name = "KEYWORD"
      · rw [if_pos keyword, if_neg (by simp [keyword]), if_pos (isIdentifier.mpr (.inl keyword))]
        omega
      by_cases plain : (keywords.classify token).name = "IDENTIFIER"
      · rw [if_neg keyword, if_pos plain, if_pos (isIdentifier.mpr (.inr plain))]
        omega
      · have other : ¬token.kind = .identifier :=
          fun same => (isIdentifier.mp same).elim keyword plain
        rw [if_neg keyword, if_neg plain, if_neg other]
        omega

theorem label_eq_end_iff (keywords : KeywordSet) (token : Token) :
    (keywords.classify token).name = "END" ↔ token.kind = .finish := by
  rw [Category.name_eq_end_iff, classify]
  split
  · next isKeyword =>
      simp only [Bool.and_eq_true, beq_iff_eq] at isKeyword
      simp [isKeyword.1]
  · simp

end KeywordSet

/-- The tally of a run ends with the `finish` token, or that token is not in it at all. -/
theorem Tally.getLast?_ofEntries (keywords : KeywordSet) (source : String) :
    let counts := ofEntries (keywords.entries (Run.ofString source).tokens)
    ((Run.ofString source).failure = none → counts.getLast? = some ("END", 1)) ∧
      ((Run.ofString source).failure ≠ none → "END" ∉ counts.names) := by
  rcases Run.kinds_ofString source with ⟨body, proper, succeeded, failed⟩
  have unknown : "END" ∉ (ofEntries (keywords.entries body)).names := by
    rw [(Counts.ofEntries _).mem_names_iff]
    intro known
    rcases List.mem_map.mp known with ⟨entry, inEntries, isEnd⟩
    rcases List.mem_map.mp inEntries with ⟨token, inBody, rfl⟩
    exact (proper token inBody).2 ((keywords.label_eq_end_iff token).mp isEnd)
  refine ⟨?_, ?_⟩
  · intro success
    have behindBody : ofEntries (keywords.entries (Run.ofString source).tokens) =
        (ofEntries (keywords.entries body)).add "END" := by
      rw [succeeded success, KeywordSet.entries, List.map_append, ofEntries, addAll,
        List.foldl_append]
      rfl
    rw [behindBody, add_of_not_mem unknown, List.getLast?_concat]
  · intro failure
    rwa [failed failure]

namespace Report

theorem row_eq (label text : String) :
    row label text = "| " ++ label ++ " --------------------- " ++ text ++ "\n" := by
  have between : " --------------------- " = " " ++ fill ++ " " := by decide +kernel
  simp only [row, between, String.append_assoc]

theorem joined_rows (tally : Tally) :
    Piece.joined (tally.map fun counted => { text := row counted.1 (Nat.repr counted.2) }) =
      String.join (tally.map fun counted =>
        "| " ++ counted.1 ++ " --------------------- " ++ Nat.repr counted.2 ++ "\n") := by
  induction tally with
  | nil => rfl
  | cons counted tally inductionHypothesis =>
      rw [List.map_cons, List.map_cons, Piece.joined, inductionHypothesis, String.join_cons,
        row_eq]

/-- The summary stands below what is written without one. -/
theorem joined_summary (entries : List Entry) :
    Piece.joined ((new .text true).pieces entries) =
      Piece.joined ((new .text false).pieces entries) ++
        ("\nCategory --------------------- Count\n==================================\n" ++
          String.join ((Tally.ofEntries entries).map fun counted =>
            "| " ++ counted.1 ++ " --------------------- " ++ Nat.repr counted.2 ++ "\n")) := by
  have nothing : ((counts? false entries).map summaryPieces).getD [] = [] := rfl
  have summary : ((counts? true entries).map summaryPieces).getD [] =
      summaryPieces (Tally.ofEntries entries) := rfl
  have heading : "\nCategory --------------------- Count\n==================================\n" =
      "\n" ++ ("Category " ++ fill ++ " Count\n") ++ (rule ++ "\n") := by decide +kernel
  rw [pieces_new_text, pieces_new_text, nothing, summary, List.append_nil, ← List.append_assoc,
    Piece.joined_append, summaryPieces, heading]
  simp only [Piece.joined, joined_rows, String.append_assoc]
  rfl

/-- The summary of a report lists every label of its entries once, in the order in which they
occur first and with the number of its entries, and nothing else. Text and JSON list the same.

In the report of a run identifiers are counted as such or as keywords. The `finish` token is
counted once and comes last if the run succeeds, and is not listed if it fails. -/
theorem summary_counts_entries (entries : List Entry) :
    let labels := entries.map Entry.label
    let counts := Tally.ofEntries entries
    let written (format : Format) (summary : Bool) : ByteArray :=
      ((new format summary).deliver .unlimited entries).sink.contents
    let listed : String :=
      "\nCategory --------------------- Count\n==================================\n" ++
        String.join (counts.map fun counted =>
          "| " ++ counted.1 ++ " --------------------- " ++ Nat.repr counted.2 ++ "\n")
    written .text true = written .text false ++ listed.toUTF8 ∧
      (∃ document tokens, written .json true = (document ++ "\n").toUTF8 ∧
        Json.read? document = some (.object [("tokens", tokens),
          ("summary", .object (counts.map fun counted => (counted.1, .number counted.2 0)))])) ∧
      counts.names.Nodup ∧ (∀ label, label ∈ counts.names ↔ label ∈ labels) ∧
      (counts.names.Pairwise fun former latter => labels.idxOf former < labels.idxOf latter) ∧
      (∀ counted ∈ counts, counted.2 = labels.count counted.1 ∧ 0 < counted.2) ∧
      counts.total = entries.length ∧
      ∀ (keywords : KeywordSet) (source : String),
        entries = keywords.entries (Run.ofString source).tokens →
        (counts.countOf "KEYWORD" + counts.countOf "IDENTIFIER" =
          (Run.ofString source).tokens.countP fun token => token.kind = .identifier) ∧
        ((Run.ofString source).failure = none ↔ counts.getLast? = some ("END", 1)) ∧
        ((Run.ofString source).failure ≠ none → counts.countOf "END" = 0) := by
  intro labels counts written listed
  have counted : counts.Counts labels := Tally.Counts.ofEntries entries
  refine ⟨?_, ?_, counted.nodup, counted.mem_names_iff, counted.ordered, ?_, ?_, ?_⟩
  · have bytes (summary : Bool) : written .text summary =
        (Piece.joined ((new .text summary).pieces entries)).toUTF8 :=
      contents_deliver_unlimited _ entries
    rw [bytes, bytes, joined_summary, String.toUTF8_eq_toByteArray, String.toByteArray_append]
    rfl
  · refine ⟨(document true entries).render, .array (entries.map Entry.value), ?_, ?_⟩
    · simp only [written, deliver_json, Sink.contents_receive_unlimited]
    · exact read?_document true entries
  · intro one membership
    have sameCount := counted.eq_count_of_mem membership
    refine ⟨sameCount, ?_⟩
    rw [sameCount, List.count_pos_iff, ← counted.mem_names_iff]
    exact List.mem_map_of_mem membership
  · exact (Tally.total_addAll [] entries).trans (Nat.zero_add _)
  · rintro keywords source rfl
    obtain ⟨endsLast, unlisted⟩ := Tally.getLast?_ofEntries keywords source
    refine ⟨?_, ⟨endsLast, ?_⟩, ?_⟩
    · rw [counted.countOf, counted.countOf]
      exact keywords.count_identifiers (Run.ofString source).tokens
    · intro isLast
      by_contra failed
      exact unlisted failed (List.mem_map_of_mem (List.mem_of_getLast? isLast))
    · intro failed
      rw [counted.countOf, List.count_eq_zero, ← counted.mem_names_iff]
      exact unlisted failed

end Report

end Tokenizer
