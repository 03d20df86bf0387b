import Mathlib.Algebra.Group.Nat.Defs
import Mathlib.Data.List.Basic
import Tokenizer.Scanner.Progress

/-!
A cursor as a text in three parts: the characters before the token in progress,
those pending since its start, and those still to be read.

Every cursor operation moves characters from the rest to the pending part, in
order and without loss. `Reads` says which; it is the only thing that later
modules need to know about positions.
-/

namespace Tokenizer

/-- The line on which a text ends that begins on the given line. -/
def lineAfter (line : UInt32) (text : List Char) : UInt32 :=
  line + UInt32.ofNat (text.count '\n')

@[simp]
theorem lineAfter_nil (line : UInt32) : lineAfter line [] = line := by
  simp [lineAfter]

theorem lineAfter_append (line : UInt32) (first second : List Char) :
    lineAfter line (first ++ second) = lineAfter (lineAfter line first) second := by
  simp only [lineAfter, List.count_append, UInt32.ofNat_add, UInt32.add_assoc]

theorem lineAfter_singleton (line : UInt32) (character : Char) :
    lineAfter line [character] = if character == '\n' then line + 1 else line := by
  by_cases lineFeed : character = '\n'
  · subst character
    rfl
  · simp [lineAfter, lineFeed]

theorem lineAfter_add (line lines : UInt32) (text : List Char) :
    lineAfter (line + lines) text = lineAfter line text + lines := by
  rw [lineAfter, lineAfter, UInt32.add_assoc, UInt32.add_comm lines, ← UInt32.add_assoc]

theorem toNat_lineAfter (line : UInt32) (text : List Char) :
    (lineAfter line text).toNat = (line.toNat + text.count '\n') % 2 ^ 32 := by
  simp [lineAfter]

/-- How often a text begins a new line. -/
def lineFeeds (text : String) : Nat :=
  text.toList.count '\n'

theorem lineFeeds_append (first second : String) :
    lineFeeds (first ++ second) = lineFeeds first + lineFeeds second := by
  rw [lineFeeds, String.toList_append, List.count_append]
  rfl

namespace Cursor

/-- The characters before the token in progress. -/
def before (cursor : Cursor) : List Char :=
  (cursor.source.sliceTo cursor.start).copy.toList

/-- The characters of the token in progress. -/
def pending (cursor : Cursor) : List Char :=
  cursor.lexeme.toList

/-- The characters still to be read. -/
def rest (cursor : Cursor) : List Char :=
  (cursor.source.sliceFrom cursor.position).copy.toList

/-- The text still to be read, as a source of its own. -/
def ahead (cursor : Cursor) : String :=
  (cursor.source.sliceFrom cursor.position).copy

@[simp]
theorem toList_ahead (cursor : Cursor) : cursor.ahead.toList = cursor.rest := rfl

/-- `next` is the cursor after reading a text that begins at `cursor`. -/
structure Reads (cursor : Cursor) (text : List Char) (next : Cursor) : Prop where
  before : next.before = cursor.before
  pending : next.pending = cursor.pending ++ text
  rest : cursor.rest = text ++ next.rest
  line : next.line = lineAfter cursor.line text

namespace Reads

theorem refl (cursor : Cursor) : Reads cursor [] cursor :=
  ⟨rfl, by simp, (List.nil_append _).symm, by simp⟩

theorem trans {cursor middle last : Cursor} {first second : List Char}
    (reads : Reads cursor first middle) (further : Reads middle second last) :
    Reads cursor (first ++ second) last where
  before := further.before.trans reads.before
  pending := by rw [further.pending, reads.pending, List.append_assoc]
  rest := by rw [reads.rest, further.rest, List.append_assoc]
  line := by rw [further.line, reads.line, lineAfter_append]

end Reads

/-! ### The parts of a cursor as strings -/

theorem lexeme_eq_ofList_pending (cursor : Cursor) :
    cursor.lexeme = String.ofList cursor.pending := by
  simp [pending]

/-- The start and the position cut the source into the same three parts. -/
theorem splits (cursor : Cursor) :
    cursor.start.Splits (String.ofList cursor.before)
        (cursor.lexeme ++ String.ofList cursor.rest) ∧
      cursor.position.Splits (String.ofList cursor.before ++ cursor.lexeme)
        (String.ofList cursor.rest) := by
  have slice : cursor.lexeme =
      (cursor.source.slice cursor.start cursor.position cursor.start_le_position).copy :=
    String.extract_eq_copy_slice _ _ _
  rcases String.copy_slice_eq_iff_splits.mp ⟨cursor.start_le_position, slice.symm⟩ with
    ⟨first, last, atStart, atPosition⟩
  have beforeEquality : String.ofList cursor.before = first := by
    simp [before, atStart.copy_sliceTo_eq]
  have restEquality : String.ofList cursor.rest = last := by
    simp [rest, atPosition.copy_sliceFrom_eq]
  rw [beforeEquality, restEquality]
  exact ⟨atStart, atPosition⟩

/-- The three parts make up the source. -/
theorem toList_source (cursor : Cursor) :
    cursor.source.toList = cursor.before ++ cursor.pending ++ cursor.rest := by
  have joined := congrArg String.toList cursor.splits.2.eq_append
  simpa [pending] using joined

/-- What has been read tells the offset of the position. -/
theorem offset_of_rest {cursor : Cursor} {read : List Char}
    (parts : cursor.source.toList = read ++ cursor.rest) :
    cursor.position.offset.byteIdx = (String.ofList read).utf8ByteSize := by
  have sameRead : cursor.before ++ cursor.pending = read := by
    rw [toList_source] at parts
    exact List.append_cancel_right parts
  rw [cursor.splits.2.offset_eq_rawEndPos, lexeme_eq_ofList_pending, ← String.ofList_append,
    sameRead, String.byteIdx_rawEndPos]

@[simp]
theorem before_ofString (source : String) : (ofString source).before = [] := by
  simp [before, ofString]

@[simp]
theorem pending_ofString (source : String) : (ofString source).pending = [] := by
  simp [pending, lexeme, ofString, String.extract_eq_copy_slice _ _ (String.Pos.le_refl _)]

@[simp]
theorem rest_ofString (source : String) : (ofString source).rest = source.toList := by
  have joined := toList_source (ofString source)
  rw [before_ofString, pending_ofString, List.nil_append, List.nil_append] at joined
  exact joined.symm

@[simp]
theorem line_ofString (source : String) : (ofString source).line = 1 := rfl

/-! ### Reading one character -/

/-- A byte of ASCII is the encoding of the character with that number. -/
theorem byte_eq_of_utf8Size {source : String} {position : source.Pos}
    {inside : position ≠ source.endPos} (size : (position.get inside).utf8Size = 1) :
    position.byte inside = (position.get inside).val.toUInt8 := by
  have encoded := String.Pos.utf8Encode_get_eq_extract position inside
  rw [List.utf8Encode_singleton, String.utf8EncodeChar_eq_singleton size, size] at encoded
  have firstByte : ∀ (bytes : ByteArray) (nonempty : 0 < bytes.size),
      [(position.get inside).val.toUInt8].toByteArray = bytes →
        bytes[0] = (position.get inside).val.toUInt8 := by
    rintro _ _ rfl
    simp
  have extracted := firstByte _ (by simp [← encoded]) encoded
  rw [ByteArray.getElem_extract] at extracted
  rw [← extracted]
  simp [String.Pos.byte, String.Slice.Pos.byte, String.Slice.getUTF8Byte,
    String.getUTF8Byte_eq_getElem]

theorem ofUInt8_toUInt8 {character : Char} (ascii : character.val ≤ 127) :
    Char.ofUInt8 character.val.toUInt8 = character := by
  have bound := UInt32.le_iff_toNat_le.mp ascii
  apply Char.ext
  apply UInt32.toNat_inj.mp
  change character.val.toUInt8.toUInt32.toNat = character.val.toNat
  rw [UInt8.toNat_toUInt32, UInt32.toNat_toUInt8]
  exact Nat.mod_eq_of_lt (Nat.lt_of_le_of_lt bound (by decide))

/-- A byte below 128 is a whole character, so reading it needs no decoding. -/
theorem characterAt_eq_get {source : String} (position : source.Pos)
    (inside : position ≠ source.endPos) :
    characterAt position inside = position.get inside := by
  simp only [characterAt]
  split
  · next small =>
      have highBit : ∀ value < 128, value &&& 128 = 0 := by decide
      have noHighBit : position.byte inside &&& 0x80 = 0 := by
        apply UInt8.toNat_inj.mp
        rw [UInt8.toNat_and]
        exact highBit _ (UInt8.lt_iff_toNat_lt.mp small)
      have size : (position.get inside).utf8Size = 1 := by
        rw [← String.Pos.utf8ByteSize_byte, UInt8.utf8ByteSize, if_pos noHighBit]
      rw [byte_eq_of_utf8Size size]
      exact ofUInt8_toUInt8 (Char.utf8Size_eq_one_iff.mp size)
  · rfl

theorem rest_eq_nil_iff (cursor : Cursor) :
    cursor.rest = [] ↔ cursor.position = cursor.source.endPos := by
  rw [cursor.splits.2.eq_endPos_iff]
  constructor
  · intro empty
    rw [empty, String.ofList_nil]
  · intro empty
    simpa using congrArg String.toList empty

theorem isAtEnd_iff (cursor : Cursor) : cursor.isAtEnd = true ↔ cursor.rest = [] := by
  rw [rest_eq_nil_iff, isAtEnd, beq_iff_eq]

theorem bump?_eq_none_iff (cursor : Cursor) : cursor.bump? = none ↔ cursor.rest = [] := by
  rw [rest_eq_nil_iff, bump?]
  split <;> simp_all

/-- The text between two positions, from the parts into which they cut. -/
theorem extract_of_splits {source first middle last : String} {start position : source.Pos}
    (atStart : start.Splits first (middle ++ last))
    (atPosition : position.Splits (first ++ middle) last) :
    String.extract start position = middle := by
  rcases String.copy_slice_eq_iff_splits.mpr ⟨first, last, atStart, atPosition⟩ with
    ⟨ordered, slice⟩
  rw [String.extract_eq_copy_slice _ _ ordered, slice]

theorem reads_of_bump? {cursor next : Cursor} {character : Char}
    (bumped : cursor.bump? = some (character, next)) : Reads cursor [character] next := by
  by_cases atEnd : cursor.position = cursor.source.endPos
  · simp [bump?, atEnd] at bumped
  · simp only [bump?, atEnd, dite_false, Option.some.injEq, Prod.mk.injEq,
      characterAt_eq_get] at bumped
    obtain ⟨rfl, rfl⟩ := bumped
    obtain ⟨atStart, atPosition⟩ := cursor.splits
    rcases atPosition.exists_eq_singleton_append atEnd with ⟨tail, restEquality⟩
    rw [restEquality] at atStart atPosition
    have advanced := atPosition.next
    rw [String.append_assoc] at advanced
    rw [← String.append_assoc] at atStart
    constructor
    · rfl
    · have extracted := congrArg String.toList (extract_of_splits atStart advanced)
      simpa [pending, lexeme] using extracted
    · have inList := congrArg String.toList restEquality
      simpa [rest, advanced.copy_sliceFrom_eq] using inList
    · exact (lineAfter_singleton _ _).symm

/-- A character that remains can be read. -/
theorem exists_bump? {cursor : Cursor} {character : Char} {tail : List Char}
    (remains : cursor.rest = character :: tail) :
    ∃ next, cursor.bump? = some (character, next) ∧ next.rest = tail := by
  cases bumped : cursor.bump? with
  | none =>
      rw [(bump?_eq_none_iff cursor).mp bumped] at remains
      cases remains
  | some result =>
      obtain ⟨found, next⟩ := result
      have reads := (reads_of_bump? bumped).rest
      rw [remains, List.singleton_append, List.cons.injEq] at reads
      exact ⟨next, by rw [reads.1], reads.2.symm⟩

theorem peek?_eq_head?_rest (cursor : Cursor) : cursor.peek? = cursor.rest.head? := by
  rw [peek?_eq_map_bump?]
  cases bumped : cursor.bump? with
  | none => simp [(bump?_eq_none_iff cursor).mp bumped]
  | some result => simp [(reads_of_bump? bumped).rest]

/-! ### Reading runs of characters -/

theorem reads_eatWhile (predicate : Char → Bool) (cursor : Cursor) :
    Reads cursor (cursor.rest.takeWhile predicate) (cursor.eatWhile predicate) := by
  fun_induction eatWhile predicate cursor with
  | case1 cursor bumped =>
      rw [(bump?_eq_none_iff cursor).mp bumped, List.takeWhile_nil]
      exact .refl cursor
  | case2 cursor character next bumped satisfied inductionHypothesis =>
      have reads := reads_of_bump? bumped
      rw [reads.rest, List.singleton_append, List.takeWhile_cons_of_pos satisfied,
        ← List.singleton_append]
      exact reads.trans inductionHypothesis
  | case3 cursor character next bumped refused =>
      rw [(reads_of_bump? bumped).rest, List.singleton_append,
        List.takeWhile_cons_of_neg refused]
      exact .refl cursor

theorem rest_eatWhile (predicate : Char → Bool) (cursor : Cursor) :
    (cursor.eatWhile predicate).rest = cursor.rest.dropWhile predicate := by
  have reads := (reads_eatWhile predicate cursor).rest
  have parts : cursor.rest.takeWhile predicate ++ cursor.rest.dropWhile predicate =
      cursor.rest := List.takeWhile_append_dropWhile
  exact List.append_cancel_left (reads.symm.trans parts.symm)

theorem reads_of_match? {expected : Char} {cursor next : Cursor}
    (matched : cursor.match? expected = some next) : Reads cursor [expected] next := by
  unfold match? at matched
  split at matched
  · next character following bumped =>
      split at matched
      · next same =>
          cases matched
          rw [← eq_of_beq same]
          exact reads_of_bump? bumped
      · cases matched
  · cases matched

theorem match?_eq_none_iff (expected : Char) (cursor : Cursor) :
    cursor.match? expected = none ↔ cursor.rest.head? ≠ some expected := by
  rw [match?, ← peek?_eq_head?_rest, peek?_eq_map_bump?]
  cases cursor.bump? with
  | none => simp
  | some result => simp

/-! ### Beginning a token -/

@[simp]
theorem before_resetStart (cursor : Cursor) :
    cursor.resetStart.before = cursor.before ++ cursor.pending := by
  have joined := congrArg String.toList cursor.splits.2.copy_sliceTo_eq
  simpa [before, resetStart, pending] using joined

@[simp]
theorem pending_resetStart (cursor : Cursor) : cursor.resetStart.pending = [] := by
  simp [pending, lexeme, resetStart, String.extract_eq_copy_slice _ _ (String.Pos.le_refl _)]

@[simp]
theorem rest_resetStart (cursor : Cursor) : cursor.resetStart.rest = cursor.rest := rfl

@[simp]
theorem line_resetStart (cursor : Cursor) : cursor.resetStart.line = cursor.line := rfl

/-! ### The source stays -/

theorem source_of_bump? {cursor next : Cursor} {character : Char}
    (bumped : cursor.bump? = some (character, next)) : next.source = cursor.source := by
  by_cases atEnd : cursor.position = cursor.source.endPos
  · simp [bump?, atEnd] at bumped
  · simp only [bump?, atEnd, dite_false, Option.some.injEq, Prod.mk.injEq] at bumped
    obtain ⟨_, rfl⟩ := bumped
    rfl

theorem source_eatWhile (predicate : Char → Bool) (cursor : Cursor) :
    (cursor.eatWhile predicate).source = cursor.source := by
  fun_induction eatWhile predicate cursor with
  | case1 => rfl
  | case2 cursor character next bumped _ inductionHypothesis =>
      exact inductionHypothesis.trans (source_of_bump? bumped)
  | case3 => rfl

theorem source_of_match? {expected : Char} {cursor next : Cursor}
    (matched : cursor.match? expected = some next) : next.source = cursor.source := by
  unfold match? at matched
  split at matched
  · next character following bumped =>
      split at matched
      · cases matched
        exact source_of_bump? bumped
      · cases matched
  · cases matched

-- From here on the parts are known by these lemmas alone. Unfolding them leads
-- into the decoding of bytes.
attribute [irreducible] before pending rest

end Cursor

end Tokenizer
