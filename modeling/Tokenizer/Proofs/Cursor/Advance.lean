import Tokenizer.Proofs.Cursor.Zipper

/-!
Where a cursor stands, in bytes of its source.

A cursor only moves forward: neither the place where it stands nor the start of the token in
progress ever goes back. So what is pending is the part of the source between the two.
-/

namespace Tokenizer.Cursor

variable {cursor middle next : Cursor} {text : List Char}

theorem offset_start (cursor : Cursor) :
    cursor.start.offset.byteIdx = byteLength cursor.before := by
  rw [cursor.splits.1.offset_eq_rawEndPos]
  rfl

theorem offset_position (cursor : Cursor) :
    cursor.position.offset.byteIdx = byteLength (cursor.before ++ cursor.pending) :=
  offset_of_rest cursor.toList_source

theorem offset_position_add (cursor : Cursor) :
    cursor.position.offset.byteIdx + byteLength cursor.rest = cursor.source.utf8ByteSize := by
  rw [offset_position, ← byteLength_append, ← toList_source, byteLength_toList]

namespace Reads

theorem offset_start_eq (reads : Reads cursor text next) :
    next.start.offset.byteIdx = cursor.start.offset.byteIdx := by
  rw [offset_start, offset_start, reads.before]

theorem offset_position_eq (reads : Reads cursor text next) :
    next.position.offset.byteIdx = cursor.position.offset.byteIdx + byteLength text := by
  rw [offset_position, offset_position, reads.before, reads.pending, ← List.append_assoc,
    byteLength_append]

/-- What is pending after some reading stands in the source from the start on. -/
theorem lexeme_eq_extract (reads : Reads cursor text next)
    (sameSource : next.source = cursor.source) :
    next.lexeme.toByteArray =
      cursor.source.toByteArray.extract cursor.start.offset.byteIdx
        next.position.offset.byteIdx := by
  rw [← reads.offset_start_eq, ← sameSource]
  exact String.toByteArray_extract

end Reads

/-- `next` stands in the source of `cursor`, and neither its start nor its position is in front
of that of `cursor`. -/
structure Advances (cursor next : Cursor) : Prop where
  source_eq : next.source = cursor.source
  start : cursor.start.offset.byteIdx ≤ next.start.offset.byteIdx
  position : cursor.position.offset.byteIdx ≤ next.position.offset.byteIdx

namespace Advances

theorem refl (cursor : Cursor) : Advances cursor cursor :=
  ⟨rfl, Nat.le_refl _, Nat.le_refl _⟩

theorem trans (first : Advances cursor middle) (second : Advances middle next) :
    Advances cursor next where
  source_eq := second.source_eq.trans first.source_eq
  start := Nat.le_trans first.start second.start
  position := Nat.le_trans first.position second.position

theorem of_reads (reads : Reads cursor text next) (sameSource : next.source = cursor.source) :
    Advances cursor next where
  source_eq := sameSource
  start := Nat.le_of_eq reads.offset_start_eq.symm
  position := by
    rw [reads.offset_position_eq]
    exact Nat.le_add_right _ _

theorem resetStart (cursor : Cursor) : Advances cursor cursor.resetStart where
  source_eq := rfl
  start := cursor.start_le_position
  position := Nat.le_refl _

end Advances

end Tokenizer.Cursor
