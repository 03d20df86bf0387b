import Mathlib.Data.List.TakeWhile
import Mathlib.Logic.Function.Iterate
import Tokenizer.Cursor.Session
import Tokenizer.Proofs.Cursor.Text

/-!
The cursor as a zipper.

A zipper has no offsets: its three lists are the text before the token in progress, the text
pending since its start and the text that remains. Whatever is done to a cursor, it answers as
the zipper does, and its offsets are the sizes of what stands before them. So no offset ever
comes to lie inside a character.
-/

namespace Tokenizer

/-- How many bytes a text takes in UTF-8. -/
def byteLength (text : List Char) : Nat :=
  (String.ofList text).utf8ByteSize

theorem byteLength_append (first second : List Char) :
    byteLength (first ++ second) = byteLength first + byteLength second := by
  rw [byteLength, String.ofList_append, String.utf8ByteSize_append]
  rfl

theorem byteLength_toList (text : String) : byteLength text.toList = text.utf8ByteSize := by
  rw [byteLength, String.ofList_toList]

/-- A text in three parts. -/
structure Zipper where
  consumed : List Char
  pending : List Char
  remaining : List Char

namespace Zipper

def ofList (text : List Char) : Zipper :=
  ⟨[], [], text⟩

/-- All that has been read. -/
def read (zipper : Zipper) : List Char :=
  zipper.consumed ++ zipper.pending

def text (zipper : Zipper) : List Char :=
  zipper.read ++ zipper.remaining

/-- Make so many of the remaining characters pending. -/
def advance (count : Nat) (zipper : Zipper) : Zipper where
  consumed := zipper.consumed
  pending := zipper.pending ++ zipper.remaining.take count
  remaining := zipper.remaining.drop count

def resetStart (zipper : Zipper) : Zipper where
  consumed := zipper.read
  pending := []
  remaining := zipper.remaining

/-- A zipper in use, with the copies that were taken, the last of them first. -/
structure Session where
  current : Zipper
  copies : List Zipper := []

namespace Session

/-- What an operation on cursors means for a zipper. -/
def perform (session : Session) : Cursor.Operation → Cursor.Answer × Session
  | .peek => (.character session.current.remaining.head?, session)
  | .peekNth count => (.character session.current.remaining[count]?, session)
  | .bump =>
      (.character session.current.remaining.head?,
        { session with current := session.current.advance 1 })
  | .eatWhile predicate =>
      let eaten := session.current.remaining.takeWhile predicate
      (.nothing, { session with current := session.current.advance eaten.length })
  | .matchCharacter expected =>
      if session.current.remaining.head? = some expected then
        (.truth true, { session with current := session.current.advance 1 })
      else (.truth false, session)
  | .resetStart => (.nothing, { session with current := session.current.resetStart })
  | .save => (.nothing, { session with copies := session.current :: session.copies })
  | .restore =>
      match session.copies.head? with
      | none => (.truth false, session)
      | some copy => (.truth true, { session with current := copy })
  | .exchange number =>
      match session.copies[number]? with
      | none => (.truth false, session)
      | some copy => (.truth true, ⟨copy, session.copies.set number session.current⟩)
  | .sourceLength => (.count (byteLength session.current.text), session)

def performAll (session : Session) :
    List Cursor.Operation → List (Cursor.Answer × Session)
  | [] => []
  | operation :: rest =>
      let answered := session.perform operation
      answered :: answered.2.performAll rest

end Session

end Zipper

namespace Cursor

def zipper (cursor : Cursor) : Zipper :=
  ⟨cursor.before, cursor.pending, cursor.rest⟩

@[simp]
theorem remaining_zipper (cursor : Cursor) : cursor.zipper.remaining = cursor.rest := rfl

theorem zipper_ofString (source : String) :
    (ofString source).zipper = Zipper.ofList source.toList := by
  simp [zipper, Zipper.ofList]

theorem text_zipper (cursor : Cursor) : cursor.zipper.text = cursor.source.toList :=
  cursor.toList_source.symm

theorem Reads.zipper_eq {cursor next : Cursor} {text : List Char}
    (reads : Reads cursor text next) : next.zipper = cursor.zipper.advance text.length := by
  simp [zipper, Zipper.advance, reads.before, reads.pending, reads.rest]

theorem zipper_resetStart (cursor : Cursor) :
    cursor.resetStart.zipper = cursor.zipper.resetStart := by
  simp [zipper, Zipper.resetStart, Zipper.read]

theorem zipper_eatWhile (predicate : Char → Bool) (cursor : Cursor) :
    (cursor.eatWhile predicate).zipper =
      cursor.zipper.advance (cursor.rest.takeWhile predicate).length :=
  (reads_eatWhile predicate cursor).zipper_eq

/-! ### Looking ahead -/

theorem nextn_endPos (source : String) (count : Nat) :
    source.endPos.nextn count = source.endPos := by
  cases count <;> simp [String.Pos.nextn, String.Slice.Pos.nextn]

theorem nextn_succ {source : String} {position : source.Pos} (inside : position ≠ source.endPos)
    (count : Nat) : position.nextn (count + 1) = (position.next inside).nextn count := by
  have insideSlice : position.toSlice ≠ source.toSlice.endPos := by simpa using inside
  rw [String.Pos.nextn, String.Slice.Pos.nextn, dif_pos insideSlice, String.Pos.nextn,
    String.Pos.toSlice_next]

/-- Decoding so many characters on finds the character that stands there. -/
theorem get?_nextn {source first last : String} {position : source.Pos}
    (splits : position.Splits first last) (count : Nat) :
    (position.nextn count).get? = last.toList[count]? := by
  induction count generalizing position first last with
  | zero =>
      by_cases atEnd : position = source.endPos
      · obtain rfl := splits.eq_endPos_iff.mp atEnd
        exact String.Pos.get?_eq_none atEnd
      · rcases splits.exists_eq_singleton_append atEnd with ⟨tail, rfl⟩
        rw [String.toList_append, String.toList_singleton]
        exact String.Pos.get?_eq_some_get atEnd
  | succ count inductionHypothesis =>
      by_cases atEnd : position = source.endPos
      · obtain rfl := splits.eq_endPos_iff.mp atEnd
        rw [atEnd, nextn_endPos]
        exact String.Pos.get?_eq_none rfl
      · rcases splits.exists_eq_singleton_append atEnd with ⟨tail, rfl⟩
        rw [nextn_succ atEnd, inductionHypothesis splits.next, String.toList_append,
          String.toList_singleton]
        rfl

theorem peekNth?_eq_getElem?_rest (cursor : Cursor) (count : Nat) :
    cursor.peekNth? count = cursor.rest[count]? := by
  cases count with
  | zero => rw [peekNth?, peek?_eq_head?_rest, List.head?_eq_getElem?]
  | succ count =>
      rw [peekNth?, get?_nextn cursor.splits.2, String.toList_ofList]

/-- The cursor with its next character read, if one remains. -/
def bumped (cursor : Cursor) : Cursor :=
  (cursor.bump?.map Prod.snd).getD cursor

theorem zipper_bumped (cursor : Cursor) : cursor.bumped.zipper = cursor.zipper.advance 1 := by
  rw [bumped]
  cases bump : cursor.bump? with
  | none => simp [zipper, Zipper.advance, (bump?_eq_none_iff cursor).mp bump]
  | some result => exact (reads_of_bump? bump).zipper_eq

theorem rest_iterate_bumped (cursor : Cursor) (count : Nat) :
    (bumped^[count] cursor).rest = cursor.rest.drop count := by
  induction count with
  | zero => rfl
  | succ count inductionHypothesis =>
      have read := congrArg Zipper.remaining (zipper_bumped (bumped^[count] cursor))
      rw [Function.iterate_succ_apply']
      simpa [Zipper.advance, inductionHypothesis] using read

theorem map_fst_bump? (cursor : Cursor) :
    cursor.bump?.map Prod.fst = cursor.rest.head? := by
  rw [← peek?_eq_head?_rest, peek?_eq_map_bump?]

/-! ### Sequences of operations -/

namespace Session

def zipper (session : Session) : Zipper.Session :=
  ⟨session.cursor.zipper, session.copies.map Cursor.zipper⟩

/-- A cursor answers as its zipper does, and then it stands where the zipper stands. -/
theorem zipper_perform (session : Session) (operation : Operation) :
    ((session.perform operation).1, (session.perform operation).2.zipper) =
      session.zipper.perform operation := by
  rcases session with ⟨cursor, copies⟩
  cases operation with
  | peek =>
      simp only [perform, peek?_eq_head?_rest]
      rfl
  | peekNth count =>
      simp only [perform, peekNth?_eq_getElem?_rest]
      rfl
  | bump =>
      have meaning : (zipper ⟨cursor, copies⟩).perform .bump =
          (.character (cursor.bump?.map Prod.fst),
            ⟨cursor.bumped.zipper, copies.map Cursor.zipper⟩) := by
        rw [map_fst_bump?, zipper_bumped]
        rfl
      rw [meaning, bumped]
      cases bump : cursor.bump? with
      | none => simp [perform, bump, zipper]
      | some result => simp [perform, bump, zipper]
  | eatWhile predicate =>
      simp only [perform, Zipper.Session.perform, zipper, zipper_eatWhile]
      rfl
  | matchCharacter expected =>
      cases matched : cursor.match? expected with
      | none =>
          have different := (match?_eq_none_iff expected cursor).mp matched
          simp only [perform, matched]
          exact (if_neg different).symm
      | some next =>
          have reads := reads_of_match? matched
          have same : cursor.rest.head? = some expected := by
            rw [reads.rest]
            rfl
          simp only [perform, matched, zipper, reads.zipper_eq]
          exact (if_pos same).symm
  | resetStart =>
      simp only [perform, zipper, zipper_resetStart]
      rfl
  | save => rfl
  | restore => cases copies <;> rfl
  | exchange number =>
      have sameCopy : (copies.map Cursor.zipper)[number]? = copies[number]?.map Cursor.zipper :=
        List.getElem?_map
      simp only [perform, Zipper.Session.perform, zipper, sameCopy]
      cases copies[number]? with
      | none => rfl
      | some copy => simp only [Option.map_some, List.map_set]
  | sourceLength =>
      simp only [perform, zipper, Zipper.Session.perform, text_zipper, byteLength_toList]

theorem map_zipper_performAll (session : Session) (operations : List Operation) :
    (session.performAll operations).map (fun answered => (answered.1, answered.2.zipper)) =
      session.zipper.performAll operations := by
  induction operations generalizing session with
  | nil => rfl
  | cons operation operations inductionHypothesis =>
      have here := zipper_perform session operation
      rw [performAll, Zipper.Session.performAll, List.map_cons, inductionHypothesis, ← here]

end Session

/-! ### What can be observed at any moment -/

/-- What a cursor in a source shows, told from its zipper. -/
structure Faithful (source : String) (cursor : Cursor) : Prop where
  source_eq : cursor.source = source
  text : cursor.zipper.text = source.toList
  start : cursor.start.offset.byteIdx = byteLength cursor.zipper.consumed
  position : cursor.position.offset.byteIdx = byteLength cursor.zipper.read
  ordered : cursor.start.offset.byteIdx ≤ cursor.position.offset.byteIdx ∧
    cursor.position.offset.byteIdx ≤ source.utf8ByteSize
  /-- Neither offset lies inside a character. -/
  boundaries : cursor.start.offset.IsValid source ∧ cursor.position.offset.IsValid source
  line : cursor.line.toNat = (1 + cursor.zipper.read.count '\n') % 2 ^ 32
  lexeme : cursor.lexeme = String.ofList cursor.zipper.pending
  bytes : cursor.lexeme.toByteArray =
    source.toByteArray.extract cursor.start.offset.byteIdx cursor.position.offset.byteIdx
  isAtEnd : cursor.isAtEnd = true ↔ cursor.peek? = none
  peek : cursor.peek? = none ↔ cursor.zipper.remaining = []
  /-- To look so many characters ahead is to read as many and then one more. -/
  peekNth : ∀ count, cursor.peekNth? count = (bumped^[count] cursor).bump?.map Prod.fst
  eatWhile : ∀ predicate, ∃ eaten,
    cursor.zipper.remaining = eaten ++ (cursor.eatWhile predicate).zipper.remaining ∧
    (∀ character ∈ eaten, predicate character = true) ∧
    ∀ start, start <+: cursor.zipper.remaining →
      (∀ character ∈ start, predicate character = true) → start <+: eaten

/-- The cursor has come to where it stands by reading from the beginning of the source. -/
structure Placed (source : String) (cursor : Cursor) : Prop where
  source_eq : cursor.source = source
  line : cursor.line = lineAfter 1 cursor.zipper.read

namespace Placed

variable {source : String} {cursor next : Cursor}

theorem ofString (source : String) : Placed source (Cursor.ofString source) where
  source_eq := rfl
  line := by simp [zipper_ofString, Zipper.ofList, Zipper.read]

theorem of_reads {text : List Char} (placed : Placed source cursor)
    (reads : Reads cursor text next) (sameSource : next.source = cursor.source) :
    Placed source next where
  source_eq := sameSource.trans placed.source_eq
  line := by
    rw [reads.line, placed.line, ← lineAfter_append]
    simp [zipper, Zipper.read, reads.before, reads.pending]

theorem resetStart (placed : Placed source cursor) : Placed source cursor.resetStart where
  source_eq := placed.source_eq
  line := by simpa [zipper_resetStart, Zipper.resetStart, Zipper.read] using placed.line

theorem faithful (placed : Placed source cursor) : Faithful source cursor := by
  rcases placed with ⟨rfl, line⟩
  have text := text_zipper cursor
  have start : cursor.start.offset.byteIdx = byteLength cursor.zipper.consumed := by
    rw [cursor.splits.1.offset_eq_rawEndPos]
    rfl
  have position : cursor.position.offset.byteIdx = byteLength cursor.zipper.read :=
    offset_of_rest text.symm
  constructor
  case source_eq => rfl
  case text => exact text
  case start => exact start
  case position => exact position
  case ordered =>
    rw [start, position, ← byteLength_toList, ← text, Zipper.text, Zipper.read,
      byteLength_append, byteLength_append, byteLength_append]
    omega
  case boundaries => exact ⟨cursor.start.isValid, cursor.position.isValid⟩
  case line => rw [line, toNat_lineAfter, UInt32.toNat_one]
  case lexeme => exact cursor.lexeme_eq_ofList_pending
  case bytes => exact String.toByteArray_extract
  case isAtEnd => rw [isAtEnd_iff, peek?_eq_head?_rest, List.head?_eq_none_iff]
  case peek => rw [peek?_eq_head?_rest, List.head?_eq_none_iff, remaining_zipper]
  case peekNth =>
    intro count
    rw [peekNth?_eq_getElem?_rest, map_fst_bump?, rest_iterate_bumped, List.head?_drop]
  case eatWhile =>
    intro predicate
    refine ⟨cursor.rest.takeWhile predicate, ?_, ?_, ?_⟩
    · exact (reads_eatWhile predicate cursor).rest
    · intro character membership
      exact List.mem_takeWhile_imp membership
    · rintro start ⟨others, parts⟩ each
      rw [remaining_zipper] at parts
      rw [← parts, List.takeWhile_append_of_pos each]
      exact List.prefix_append _ _

end Placed

namespace Session

/-- The cursor in use and its copies are all placed in the source. -/
structure Placed (source : String) (session : Session) : Prop where
  cursor : session.cursor.Placed source
  copies : ∀ copy ∈ session.copies, copy.Placed source

namespace Placed

variable {source : String} {session : Session}

theorem ofString (source : String) : Placed source (Session.ofString source) where
  cursor := .ofString source
  copies := by simp [Session.ofString]

theorem perform (placed : session.Placed source) (operation : Operation) :
    (session.perform operation).2.Placed source := by
  rcases session with ⟨cursor, copies⟩
  rcases placed with ⟨placed, copiesPlaced⟩
  cases operation with
  | bump =>
      simp only [Session.perform]
      split
      · exact ⟨placed, copiesPlaced⟩
      · next bump =>
          exact ⟨placed.of_reads (reads_of_bump? bump) (source_of_bump? bump), copiesPlaced⟩
  | eatWhile predicate =>
      exact ⟨placed.of_reads (reads_eatWhile predicate cursor) (source_eatWhile predicate cursor),
        copiesPlaced⟩
  | matchCharacter expected =>
      simp only [Session.perform]
      split
      · exact ⟨placed, copiesPlaced⟩
      · next matched =>
          exact ⟨placed.of_reads (reads_of_match? matched) (source_of_match? matched), copiesPlaced⟩
  | resetStart => exact ⟨placed.resetStart, copiesPlaced⟩
  | save => exact ⟨placed, List.forall_mem_cons.mpr ⟨placed, copiesPlaced⟩⟩
  | restore =>
      simp only [Session.perform]
      split
      · exact ⟨placed, copiesPlaced⟩
      · next last => exact ⟨copiesPlaced _ (List.mem_of_head? last), copiesPlaced⟩
  | exchange number =>
      simp only [Session.perform]
      split
      · exact ⟨placed, copiesPlaced⟩
      · next found =>
          refine ⟨copiesPlaced _ (List.mem_of_getElem? found), ?_⟩
          intro copy isCopy
          rcases List.mem_or_eq_of_mem_set isCopy with former | rfl
          · exact copiesPlaced copy former
          · exact placed
  | peek | peekNth | sourceLength => exact ⟨placed, copiesPlaced⟩

theorem performAll (placed : session.Placed source) (operations : List Operation) :
    ∀ later ∈ (session.performAll operations).map Prod.snd, later.Placed source := by
  induction operations generalizing session with
  | nil => simp [Session.performAll]
  | cons operation operations inductionHypothesis =>
      have next := placed.perform operation
      rw [Session.performAll, List.map_cons, List.forall_mem_cons]
      exact ⟨next, inductionHypothesis next⟩

end Placed

/-- Whatever is done to a cursor and its copies, in whatever order they are used, each answers as a
zipper of its own does, which knows no offsets, and all that can be observed of it is told by the
zipper. -/
theorem refines_zipper (source : String) (operations : List Operation) :
    let performed := (Session.ofString source).performAll operations
    performed.map (fun answered => (answered.1, answered.2.zipper)) =
        Zipper.Session.performAll ⟨Zipper.ofList source.toList, []⟩ operations ∧
      ∀ session ∈ Session.ofString source :: performed.map Prod.snd,
        ∀ cursor ∈ session.cursor :: session.copies, cursor.Faithful source := by
  intro performed
  have begins : (Session.ofString source).zipper = ⟨Zipper.ofList source.toList, []⟩ := by
    rw [← zipper_ofString]
    rfl
  have placed := Placed.ofString source
  constructor
  · rw [← begins]
    exact map_zipper_performAll _ operations
  · intro session membership
    have placedHere : session.Placed source := by
      rcases List.mem_cons.mp membership with rfl | later
      · exact placed
      · exact placed.performAll operations session later
    intro cursor inUse
    rcases List.mem_cons.mp inUse with rfl | isCopy
    · exact placedHere.cursor.faithful
    · exact (placedHere.copies cursor isCopy).faithful

end Session

end Cursor

end Tokenizer
