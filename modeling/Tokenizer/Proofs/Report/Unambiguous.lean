import Tokenizer.Proofs.Report.Written
import Tokenizer.Proofs.Scanner.Place

/-!
A text report of a run tells its rows apart.

Lexemes stand in a text report as they are, so a string over several lines may look like further
rows or like a summary. But a label ends at the first space behind it, a string ends where its
literal ends, and no other lexeme goes over a line. Each of the three is a language of which no
word begins another one.
-/

namespace Tokenizer

namespace Grammar

/-- No word of the language begins another one, so that a word is known from any text that begins
with it. -/
def PrefixFree (language : Language Char) : Prop :=
  ∀ word ∈ language, ∀ other ∈ language, ∀ tail rest,
    word ++ tail = other ++ rest → word = other ∧ tail = rest

theorem prefixFree_of_append_not_mem {language : Language Char}
    (longer : ∀ word ∈ language, ∀ next more, word ++ next :: more ∉ language) :
    PrefixFree language := by
  intro word membership other otherMembership tail rest same
  rcases List.append_eq_append_iff.mp same with ⟨more, rfl, rfl⟩ | ⟨more, rfl, rfl⟩
  · cases more with
    | nil => exact ⟨(List.append_nil _).symm, rfl⟩
    | cons next more => exact absurd otherMembership (longer word membership next more)
  · cases more with
    | nil => exact ⟨List.append_nil _, rfl⟩
    | cons next more => exact absurd membership (longer other otherMembership next more)

theorem prefixFree_string : PrefixFree Kind.string.grammar :=
  prefixFree_of_append_not_mem fun _ => string_append_not_mem

/-- The texts that end with the first mark in them. -/
def upTo (mark : Char) : Language Char :=
  {word | ∃ text, mark ∉ text ∧ word = text ++ [mark]}

theorem prefixFree_upTo (mark : Char) : PrefixFree (upTo mark) := by
  apply prefixFree_of_append_not_mem
  rintro _ ⟨text, _, rfl⟩ next more ⟨longer, unmarked, same⟩
  -- The mark behind the text stands in the longer one too, and not at its end.
  have inLonger : mark ∈ longer := by
    have dropped := congrArg List.dropLast same
    rw [List.dropLast_concat, List.append_assoc, List.singleton_append,
      List.dropLast_append_cons, List.dropLast_cons_of_ne_nil (List.cons_ne_nil _ _)] at dropped
    rw [← dropped]
    simp
  exact unmarked inLonger

end Grammar

open Grammar

/-! ### Rows -/

/-- What makes a row end where its lexeme ends. -/
structure Legible (label lexeme : String) : Prop where
  spaceless : ' ' ∉ label.toList
  closed : label = "STRING" → lexeme.toList ∈ Kind.string.grammar
  inLine : label ≠ "STRING" → '\n' ∉ lexeme.toList

namespace Report

variable {label other lexeme otherLexeme : String} {tail rest : List Char}

theorem toList_row (label lexeme : String) :
    (row label lexeme).toList =
      ['|', ' '] ++ ((label.toList ++ [' ']) ++
        (fill.toList ++ ([' '] ++ (lexeme.toList ++ ['\n'])))) := by
  simp [row]

theorem row_inj (first : Legible label lexeme) (second : Legible other otherLexeme)
    (same : (row label lexeme).toList ++ tail = (row other otherLexeme).toList ++ rest) :
    label = other ∧ lexeme = otherLexeme ∧ tail = rest := by
  simp only [toList_row, List.append_assoc, List.append_cancel_left_eq] at same
  rw [← List.append_assoc, ← List.append_assoc other.toList] at same
  obtain ⟨sameLabel, behindLabel⟩ := prefixFree_upTo ' ' _ ⟨_, first.spaceless, rfl⟩ _
    ⟨_, second.spaceless, rfl⟩ _ _ same
  obtain rfl := String.toList_inj.mp (List.append_cancel_right sameLabel)
  simp only [List.append_cancel_left_eq] at behindLabel
  refine ⟨rfl, ?_⟩
  -- A string may go over lines, so its end is known from its quotes and not from a line feed.
  by_cases isString : label = "STRING"
  · obtain ⟨sameLexeme, behind⟩ := prefixFree_string _ (first.closed isString) _
      (second.closed isString) _ _ behindLabel
    exact ⟨String.toList_inj.mp sameLexeme, List.append_cancel_left behind⟩
  · rw [← List.append_assoc, ← List.append_assoc otherLexeme.toList] at behindLabel
    obtain ⟨sameLexeme, behind⟩ := prefixFree_upTo '\n' _ ⟨_, first.inLine isString, rfl⟩ _
      ⟨_, second.inLine isString, rfl⟩ _ _ behindLabel
    exact ⟨String.toList_inj.mp (List.append_cancel_right sameLexeme), behind⟩

def rows (pairs : List (String × String)) : List Char :=
  pairs.flatMap fun pair => (row pair.1 pair.2).toList

/-- Behind the rows of a report stands nothing that begins like a row. -/
def Trails (tail : List Char) : Prop :=
  tail.head? ≠ some '|'

theorem rows_cons_ne_of_trails (trails : Trails tail) (pair : String × String)
    (pairs : List (String × String)) : rows (pair :: pairs) ++ rest ≠ tail := by
  rintro rfl
  apply trails
  simp [rows, row]

theorem rows_inj {pairs others : List (String × String)}
    (legible : ∀ pair ∈ pairs, Legible pair.1 pair.2)
    (othersLegible : ∀ pair ∈ others, Legible pair.1 pair.2)
    (trails : Trails tail) (restTrails : Trails rest)
    (same : rows pairs ++ tail = rows others ++ rest) : pairs = others := by
  induction pairs generalizing others with
  | nil =>
      cases others with
      | nil => rfl
      | cons other others => exact absurd same.symm (rows_cons_ne_of_trails trails other others)
  | cons pair pairs inductionHypothesis =>
      cases others with
      | nil => exact absurd same (rows_cons_ne_of_trails restTrails pair pairs)
      | cons other others =>
          rw [List.forall_mem_cons] at legible othersLegible
          have behind (pair : String × String) (pairs : List (String × String))
              (tail : List Char) : rows (pair :: pairs) ++ tail =
                (row pair.1 pair.2).toList ++ (rows pairs ++ tail) := by
            rw [rows, List.flatMap_cons, List.append_assoc]
            rfl
          rw [behind, behind] at same
          obtain ⟨sameLabel, sameLexeme, sameTail⟩ :=
            row_inj legible.1 othersLegible.1 same
          rw [Prod.ext sameLabel sameLexeme,
            inductionHypothesis legible.2 othersLegible.2 sameTail]

end Report

/-! ### The rows of a run -/

/-- A label and the lexeme behind it, as a text report shows an entry. -/
def Entry.shown (entry : Entry) : String × String :=
  (entry.label, entry.token.lexeme)

theorem Category.space_not_mem_name (category : Category) : ' ' ∉ category.name.toList := by
  rcases category with _ | kind
  · decide
  · cases kind <;> decide

theorem Category.name_eq_string_iff (category : Category) :
    category.name = "STRING" ↔ category = .plain .string := by
  rcases category with _ | kind
  · decide
  · cases kind <;> decide

theorem KeywordSet.classify_eq_string_iff (keywords : KeywordSet) (token : Token) :
    keywords.classify token = .plain .string ↔ token.kind = .string := by
  unfold classify
  split
  · next isKeyword =>
      have isIdentifier : token.kind = .identifier := by
        simp only [Bool.and_eq_true, beq_iff_eq] at isKeyword
        exact isKeyword.1
      simp [isIdentifier]
  · simp

theorem Run.legible_shown (keywords : KeywordSet) (source : String) :
    ∀ pair ∈ (keywords.entries (ofString source).tokens).map Entry.shown,
      Legible pair.1 pair.2 := by
  intro pair membership
  rcases List.mem_map.mp membership with ⟨_, inEntries, rfl⟩
  rcases List.mem_map.mp inEntries with ⟨token, inTokens, rfl⟩
  rcases Run.exists_scans source with ⟨marks, scans, sameTokens⟩
  rw [← sameTokens] at inTokens
  rcases List.mem_map.mp inTokens with ⟨mark, inMarks, rfl⟩
  rcases scans.exists_place inMarks with ⟨_, _, _, word⟩
  have isString : (keywords.classify mark.1).name = "STRING" ↔ mark.1.kind = .string := by
    rw [Category.name_eq_string_iff, KeywordSet.classify_eq_string_iff]
  refine ⟨Category.space_not_mem_name _, ?_, ?_⟩
  · intro labelled
    -- `finish` is the only token that is no word of its kind, and it is no string.
    rcases word with word | ⟨isFinish, _⟩
    · rwa [isString.mp labelled] at word
    · rw [isString.mp labelled] at isFinish
      cases isFinish
  · intro labelled
    rcases word with word | ⟨_, empty, _⟩
    · exact lineEnd_not_mem (.inl rfl) word fun kind => labelled (isString.mpr kind)
    · simp [Entry.shown, empty]

/-! ### Whole reports -/

namespace Report

variable {entries others : List Entry}

def trailer (summary : Bool) (entries : List Entry) : List Char :=
  (Piece.joined (((counts? summary entries).map summaryPieces).getD [])).toList

theorem trails_trailer (summary : Bool) (entries : List Entry) :
    Trails (trailer summary entries) := by
  cases summary <;> simp [Trails, trailer, counts?, summaryPieces, Piece.joined]

theorem toList_joined_rows (entries : List Entry) :
    (Piece.joined (entries.map fun entry =>
      { text := row entry.label entry.token.lexeme })).toList =
      rows (entries.map Entry.shown) := by
  induction entries with
  | nil => rfl
  | cons entry entries inductionHypothesis =>
      rw [List.map_cons, Piece.joined, String.toList_append, inductionHypothesis]
      rfl

theorem toList_text (summary : Bool) (entries : List Entry) :
    (Piece.joined ((new .text summary).pieces entries)).toList =
      (Piece.joined (new .text summary).opening).toList ++
        (rows (entries.map Entry.shown) ++ trailer summary entries) := by
  rw [pieces_new_text, Piece.joined_append, Piece.joined_append, String.toList_append,
    String.toList_append, toList_joined_rows, trailer]

theorem ofEntries_congr (same : entries.map Entry.shown = others.map Entry.shown) :
    Tally.ofEntries entries = Tally.ofEntries others := by
  have counted (entries : List Entry) : Tally.ofEntries entries =
      (entries.map Entry.shown).foldl (fun tally pair => Tally.add pair.1 tally) [] := by
    rw [List.foldl_map]
    rfl
  rw [counted, counted, same]

/-- Text reports of two runs are the same bytes if and only if the runs have the same lexemes
under the same labels. -/
theorem text_tells_runs_apart (summary : Bool) (keywords otherKeywords : KeywordSet)
    (source other : String) :
    let recorded (keywords : KeywordSet) (source : String) : List Entry :=
      keywords.entries (Run.ofString source).tokens
    let written (keywords : KeywordSet) (source : String) : ByteArray :=
      ((new .text summary).deliver .unlimited (recorded keywords source)).sink.contents
    written keywords source = written otherKeywords other ↔
      (recorded keywords source).map Entry.shown =
        (recorded otherKeywords other).map Entry.shown := by
  intro recorded written
  have bytes (keywords : KeywordSet) (source : String) : written keywords source =
      (Piece.joined ((new .text summary).pieces (recorded keywords source))).toUTF8 :=
    contents_deliver_unlimited _ _
  rw [bytes, bytes, String.toUTF8_eq_toByteArray, String.toUTF8_eq_toByteArray,
    String.toByteArray_inj, ← String.toList_inj, toList_text, toList_text,
    List.append_cancel_left_eq]
  constructor
  · intro same
    exact rows_inj (Run.legible_shown keywords source) (Run.legible_shown otherKeywords other)
      (trails_trailer _ _) (trails_trailer _ _) same
  · intro same
    rw [same, trailer, trailer, counts?, counts?, ofEntries_congr same]

end Report

end Tokenizer
