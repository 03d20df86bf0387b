import Tokenizer.Proofs.Scanner.Cut

/-!
Runs that fail.

A run stops at a stray character or at a quote that is never matched, and up to
there it has emitted the tokens of the text before that place. A comment hides
any such character, and an identifier hides an underscore.
-/

namespace Tokenizer

open Grammar

namespace Grammar

/-- What a character that is no letter, digit, operator or white space goes on. -/
theorem extends_iff_of_outside {kind : Kind} {word : List Char} {character : Char}
    (notLetter : ¬ Letter character) (notDigit : ¬ Digit character)
    (notOperator : ¬ Operator character) (notBlank : ¬ Blank character)
    (membership : word ∈ kind.grammar) :
    Extends word character ↔ kind = .comment ∨ kind = .identifier ∧ character = '_' := by
  rw [extends_iff membership]
  cases kind with
  | identifier => simp [Continues, WordCharacter, notLetter, notDigit]
  | integer =>
      have notPoint : character ≠ '.' := by
        rintro rfl
        apply notOperator
        simp [Operator]
      simp [Continues, notDigit, notPoint]
  | real => simp [Continues, notDigit]
  | operator =>
      have notPair : word ++ [character] ∉ operatorPairs := fun inPairs =>
        notOperator (operator_of_append_mem_pairs inPairs)
      simp [Continues, notPair]
  | comment =>
      have notEnd : ¬ LineEnd character := fun lineEnd => notBlank (.inr (.inr lineEnd))
      simp [Continues, notEnd]
  | _ => simp [Continues]

theorem extends_stray_iff {kind : Kind} {word : List Char} {character : Char}
    (stray : Stray character) (membership : word ∈ kind.grammar) :
    Extends word character ↔ kind = .comment ∨ kind = .identifier ∧ character = '_' :=
  extends_iff_of_outside stray.notLetter stray.notDigit stray.notOperator stray.notBlank membership

theorem extends_quote_iff {kind : Kind} {word : List Char} {quote : Char}
    (isQuote : Quote quote) (membership : word ∈ kind.grammar) :
    Extends word quote ↔ kind = .comment := by
  have notLetter : ¬ Letter quote := by
    rcases isQuote with rfl | rfl <;> unfold Letter <;> decide
  have notDigit : ¬ Digit quote := by
    rcases isQuote with rfl | rfl <;> unfold Digit <;> decide
  have notOperator : ¬ Operator quote := by
    rcases isQuote with rfl | rfl <;> unfold Operator <;> decide
  have notUnderscore : quote ≠ '_' := by
    rcases isQuote with rfl | rfl <;> decide
  rw [extends_iff_of_outside notLetter notDigit notOperator isQuote.not_blank membership]
  simp [notUnderscore]

end Grammar

/-! ### The token at the end of a text -/

/-- The last token before the `finish` is of this kind, and it was emitted with
nothing left to read. -/
def EndsWith (source : String) (kind : Kind) : Prop :=
  ∃ last ∈ (Trace.ofString source).emissions.dropLast.getLast?,
    last.token.kind = kind ∧ last.cursor.isAtEnd = true

theorem endsWith_iff {source : String} {kind : Kind} {marks : List Mark}
    (scans : Scans 1 source.toList marks none) :
    EndsWith source kind ↔ ∃ mark ∈ marks.dropLast, mark.1.kind = kind ∧ mark.2 = [] := by
  obtain ⟨rfl, _⟩ := scans_iff_ofString.mp scans
  rw [← List.map_dropLast]
  constructor
  · rintro ⟨last, isLast, sameKind, atEnd⟩
    refine ⟨last.mark, List.mem_map_of_mem (List.mem_of_getLast? isLast), sameKind, ?_⟩
    rw [Emission.mark, ← Cursor.isAtEnd_iff, atEnd]
  · rintro ⟨mark, membership, sameKind, atEnd⟩
    rw [List.map_dropLast] at membership
    have isLast := scans.getLast?_of_rest_nil membership atEnd
    rw [← List.map_dropLast, List.getLast?_map, Option.map_eq_some_iff] at isLast
    rcases isLast with ⟨last, isLast, rfl⟩
    rw [Emission.mark, ← Cursor.isAtEnd_iff] at atEnd
    exact ⟨last, isLast, sameKind, atEnd⟩

/-- Whether a text goes on with a character is decided by its last token, when
the kind of a word alone decides whether the character extends it. -/
theorem unextended_iff {source : String} {marks : List Mark} {next : Char} {tail : List Char}
    {ExtendsKind : Kind → Prop} (scans : Scans 1 source.toList marks none)
    (decided : ∀ {kind : Kind} {word : List Char}, word ∈ kind.grammar →
      (Extends word next ↔ ExtendsKind kind)) :
    Unextended marks.dropLast (next :: tail) ↔
      ∀ kind, ExtendsKind kind → ¬ EndsWith source kind := by
  simp only [endsWith_iff scans]
  constructor
  · rintro unextended kind goesOn ⟨mark, membership, rfl, atEnd⟩
    have inGrammar := scans.mem_grammar mark membership
    exact unextended mark membership atEnd next rfl ((decided inGrammar).mpr goesOn)
  · intro noneEnds mark membership atEnd other isNext extended
    cases isNext
    have inGrammar := scans.mem_grammar mark membership
    exact noneEnds _ ((decided inGrammar).mp extended) ⟨mark, membership, rfl, atEnd⟩

/-! ### Failing runs -/

theorem tokenize_eq_ok_concat_iff {source : String} {tokens : List Token} {line : UInt32} :
    tokenize source = .ok (tokens ++ [⟨.finish, line, ""⟩]) ↔
      ∃ marks, Scans 1 source.toList marks none ∧ marks.dropLast.map Prod.fst = tokens ∧
        lineAfter 1 source.toList = line := by
  rw [tokenize_eq_ok_iff, Run.ofString_eq_iff]
  refine exists_congr fun marks => and_congr_right fun scans => ?_
  have ends := scans.eq_dropLast_append
  constructor
  · intro equality
    rw [ends, List.map_append, List.map_singleton] at equality
    obtain ⟨sameTokens, sameLast⟩ := List.append_inj' equality rfl
    cases sameLast
    exact ⟨sameTokens, rfl⟩
  · rintro ⟨rfl, rfl⟩
    rw [ends, List.dropLast_concat, List.map_append, List.map_singleton]

/-- A failing run has emitted the tokens of the text before the place where it
stops. -/
theorem Run.ofString_eq_some_iff {source : String} {tokens : List Token} {error : LexicalError} :
    Run.ofString source = ⟨tokens, some error⟩ ↔
      ∃ (before : String) (tail : List Char) (marks : List Mark),
        source.toList = before.toList ++ tail ∧ Scans 1 before.toList marks none ∧
        Unextended marks.dropLast tail ∧ Stops (lineAfter 1 before.toList) tail error ∧
        marks.dropLast.map Prod.fst = tokens := by
  rw [Run.ofString_eq_iff]
  constructor
  · rintro ⟨_, scans, rfl⟩
    rcases scans.exists_stop with ⟨before, tail, marks, equality, whole, unextended, stops, rfl⟩
    refine ⟨String.ofList before, tail, marks, ?_⟩
    rw [String.toList_ofList, map_fst_extend]
    exact ⟨equality, whole, unextended, stops, rfl⟩
  · rintro ⟨before, tail, marks, equality, whole, unextended, stops, rfl⟩
    refine ⟨_, scans_some_iff.mpr ⟨_, tail, marks, equality, whole, unextended, stops, rfl⟩, ?_⟩
    rw [map_fst_extend]

theorem Run.ofString_eq_unrecognizedCharacter_iff {source : String} {tokens : List Token}
    {line : UInt32} {character : Char} :
    Run.ofString source = ⟨tokens, some (.unrecognizedCharacter line character)⟩ ↔
      ∃ before after : String, source = before ++ String.singleton character ++ after ∧
        Stray character ∧ tokenize before = .ok (tokens ++ [⟨.finish, line, ""⟩]) ∧
        ¬ (EndsWith before .comment ∨ EndsWith before .identifier ∧ character = '_') := by
  have hidden : ∀ {before : String}, (∀ kind : Kind,
      (kind = .comment ∨ kind = .identifier ∧ character = '_') → ¬ EndsWith before kind) ↔
      ¬ (EndsWith before .comment ∨ EndsWith before .identifier ∧ character = '_') := by
    intro before
    constructor
    · rintro noneEnds (ends | ⟨ends, isUnderscore⟩)
      · exact noneEnds _ (.inl rfl) ends
      · exact noneEnds _ (.inr ⟨rfl, isUnderscore⟩) ends
    · rintro unhidden kind (rfl | ⟨rfl, isUnderscore⟩) ends
      · exact unhidden (.inl ends)
      · exact unhidden (.inr ⟨ends, isUnderscore⟩)
  rw [Run.ofString_eq_some_iff]
  constructor
  · rintro ⟨before, tail, marks, equality, whole, unextended, stops, sameTokens⟩
    generalize sameLine : lineAfter 1 before.toList = stopLine at stops
    cases stops with
    | @stray _ rest stray =>
        refine ⟨before, String.ofList rest, ?_, stray, ?_, ?_⟩
        · rw [← String.toList_inj, equality]
          simp
        · exact tokenize_eq_ok_concat_iff.mpr ⟨marks, whole, sameTokens, sameLine⟩
        · exact hidden.mp ((unextended_iff whole (extends_stray_iff stray)).mp unextended)
  · rintro ⟨before, after, rfl, stray, succeeded, unhidden⟩
    rcases tokenize_eq_ok_concat_iff.mp succeeded with ⟨marks, whole, sameTokens, rfl⟩
    refine ⟨before, character :: after.toList, marks, by simp, whole, ?_, .stray stray,
      sameTokens⟩
    exact (unextended_iff whole (extends_stray_iff stray)).mpr (hidden.mpr unhidden)

theorem Run.ofString_eq_unterminatedString_iff {source : String} {tokens : List Token}
    {line : UInt32} :
    Run.ofString source = ⟨tokens, some (.unterminatedString line)⟩ ↔
      ∃ (before : String) (quote : Char) (body : String),
        source = before ++ String.singleton quote ++ body ∧ Quote quote ∧
        (∃ lastLine, tokenize before = .ok (tokens ++ [⟨.finish, lastLine, ""⟩])) ∧
        ¬ EndsWith before .comment ∧ [quote] ∉ units body.toList ∧
        line = 1 + UInt32.ofNat (source.toList.count '\n') := by
  have endLine : ∀ {before tail : List Char}, source.toList = before ++ tail →
      lineAfter (lineAfter 1 before) tail = 1 + UInt32.ofNat (source.toList.count '\n') := by
    intro before tail equality
    rw [← lineAfter_append, ← equality, lineAfter]
  rw [Run.ofString_eq_some_iff]
  constructor
  · rintro ⟨before, tail, marks, equality, whole, unextended, stops, sameTokens⟩
    have lineEquality := endLine equality
    generalize sameLine : lineAfter 1 before.toList = stopLine at stops lineEquality
    cases stops with
    | @unclosed quote body isQuote noQuote =>
        refine ⟨before, quote, String.ofList body, ?_, isQuote, ⟨stopLine, ?_⟩, ?_, ?_,
          lineEquality⟩
        · rw [← String.toList_inj, equality]
          simp
        · exact tokenize_eq_ok_concat_iff.mpr ⟨marks, whole, sameTokens, sameLine⟩
        · exact (unextended_iff whole (extends_quote_iff isQuote)).mp unextended _ rfl
        · rwa [String.toList_ofList]
  · rintro ⟨before, quote, body, sourceEquality, isQuote, ⟨lastLine, succeeded⟩, unhidden, noQuote,
      rfl⟩
    rcases tokenize_eq_ok_concat_iff.mp succeeded with ⟨marks, whole, sameTokens, rfl⟩
    have equality : source.toList = before.toList ++ quote :: body.toList := by
      rw [sourceEquality]
      simp
    refine ⟨before, quote :: body.toList, marks, equality, whole, ?_, ?_, sameTokens⟩
    · apply (unextended_iff whole (extends_quote_iff isQuote)).mpr
      rintro kind rfl
      exact unhidden
    · rw [← endLine equality]
      exact .unclosed isQuote noQuote

/-- A run stops at a stray character, or at a quote that is never matched,
exactly if it has emitted the tokens of the text before that place and the last
of these does not hide the character. No failing run emits a `finish`. -/
theorem Run.fails_iff_stops_behind_tokenized (source : String) (tokens : List Token) :
    (∀ line character,
      Run.ofString source = ⟨tokens, some (.unrecognizedCharacter line character)⟩ ↔
        ∃ before after : String, source = before ++ String.singleton character ++ after ∧
          Stray character ∧ tokenize before = .ok (tokens ++ [⟨.finish, line, ""⟩]) ∧
          ¬ (EndsWith before .comment ∨ EndsWith before .identifier ∧ character = '_')) ∧
    (∀ line,
      Run.ofString source = ⟨tokens, some (.unterminatedString line)⟩ ↔
        ∃ (before : String) (quote : Char) (body : String),
          source = before ++ String.singleton quote ++ body ∧ Quote quote ∧
          (∃ lastLine, tokenize before = .ok (tokens ++ [⟨.finish, lastLine, ""⟩])) ∧
          ¬ EndsWith before .comment ∧ [quote] ∉ units body.toList ∧
          line = 1 + UInt32.ofNat (source.toList.count '\n')) ∧
    ∀ error, Run.ofString source = ⟨tokens, some error⟩ →
      (∀ token ∈ tokens, token.kind ≠ .finish) ∧ tokenize source = .error error := by
  refine ⟨fun _ _ => ofString_eq_unrecognizedCharacter_iff,
    fun _ => ofString_eq_unterminatedString_iff, ?_⟩
  intro error failed
  refine ⟨?_, tokenize_eq_error_iff.mpr (by rw [failed])⟩
  rcases Run.kinds_ofString source with ⟨body, proper, _, isBody⟩
  rw [failed] at isBody
  obtain rfl : tokens = body := isBody (by simp)
  exact fun token membership => (proper token membership).2

end Tokenizer
