import Tokenizer.Proofs.Report.Written

/-!
What a report writes where there is room for a part of it.

The room ends inside one piece or behind the last. What stands before its end is kept, whatever
the piece, and the piece in which it ends is the one that fails. So the call that fails and its
error are read off the length of what the calls before it write, and they are the same if a piece
is not written at once.
-/

namespace Tokenizer

namespace Piece

variable {pieces others : List Piece} {piece : Piece}

/-- The size of pieces that are written one behind the other, in bytes. -/
def size (pieces : List Piece) : Nat :=
  (joined pieces).utf8ByteSize

theorem size_nil : size [] = 0 :=
  rfl

theorem size_cons (piece : Piece) (pieces : List Piece) :
    size (piece :: pieces) = piece.text.utf8ByteSize + size pieces := by
  rw [size, joined, String.utf8ByteSize_append, size]

theorem size_append (pieces others : List Piece) :
    size (pieces ++ others) = size pieces + size others := by
  rw [size, joined_append, String.utf8ByteSize_append, size, size]

theorem toUTF8_joined_append (pieces others : List Piece) :
    (joined pieces).toUTF8 ++ (joined others).toUTF8 = (joined (pieces ++ others)).toUTF8 := by
  simp only [joined_append, String.toUTF8_eq_toByteArray, String.toByteArray_append]

theorem size_toUTF8_joined (pieces : List Piece) : (joined pieces).toUTF8.size = size pieces := by
  rw [String.toUTF8_eq_toByteArray, String.size_toByteArray, size]

/-- The piece in which the byte at an offset stands, if the pieces go so far. -/
def at? (offset : Nat) : List Piece → Option Piece
  | [] => none
  | piece :: rest =>
      if offset < piece.text.utf8ByteSize then some piece
      else at? (offset - piece.text.utf8ByteSize) rest

theorem at?_append (offset : Nat) (pieces others : List Piece) :
    at? offset (pieces ++ others) =
      if offset < size pieces then at? offset pieces else at? (offset - size pieces) others := by
  induction pieces generalizing offset with
  | nil => rfl
  | cons piece pieces inductionHypothesis =>
      rw [List.cons_append, at?, at?, size_cons]
      by_cases inside : offset < piece.text.utf8ByteSize
      · rw [if_pos inside, if_pos (by omega), if_pos inside]
      · rw [if_neg inside, inductionHypothesis, Nat.sub_sub]
        by_cases insideRest : offset - piece.text.utf8ByteSize < size pieces
        · rw [if_pos insideRest, if_pos (by omega), if_neg inside]
        · rw [if_neg insideRest, if_neg (by omega)]

/-- The error of pieces that all stand in a document, or all outside. -/
def errorIn (inDocument : Bool) (cause : SystemError) : Error :=
  if inDocument then .document cause else .io cause

theorem map_error_at? {inDocument : Bool}
    (uniform : ∀ piece ∈ pieces, piece.inDocument = inDocument) (cause : SystemError)
    (offset : Nat) :
    (at? offset pieces).map (fun piece => piece.error cause) =
      if size pieces ≤ offset then none else some (errorIn inDocument cause) := by
  induction pieces generalizing offset with
  | nil => rw [at?, Option.map_none, size_nil, if_pos (Nat.zero_le offset)]
  | cons piece pieces inductionHypothesis =>
      rw [List.forall_mem_cons] at uniform
      rw [at?, size_cons]
      by_cases inside : offset < piece.text.utf8ByteSize
      · rw [if_pos inside, if_neg (by omega), Option.map_some, error, uniform.1, errorIn]
      · rw [if_neg inside, inductionHypothesis uniform.2]
        congr 1
        apply propext
        omega

/-- A way to write pieces bit by bit: the fragments of each of them, some of which may be empty. -/
structure Division where
  fragments : Piece → List Piece
  whole : ∀ piece, joined (fragments piece) = piece.text
  uniform : ∀ piece, ∀ fragment ∈ fragments piece, fragment.inDocument = piece.inDocument

theorem Division.joined_flatMap (division : Division) (pieces : List Piece) :
    joined (pieces.flatMap division.fragments) = joined pieces := by
  induction pieces with
  | nil => rfl
  | cons piece pieces inductionHypothesis =>
      rw [List.flatMap_cons, joined_append, division.whole, inductionHypothesis, joined]

theorem Division.map_error_at?_flatMap (division : Division) (cause : SystemError)
    (offset : Nat) (pieces : List Piece) :
    (at? offset (pieces.flatMap division.fragments)).map (fun piece => piece.error cause) =
      (at? offset pieces).map fun piece => piece.error cause := by
  induction pieces generalizing offset with
  | nil => rfl
  | cons piece pieces inductionHypothesis =>
      have sameSize : size (division.fragments piece) = piece.text.utf8ByteSize := by
        rw [size, division.whole]
      rw [List.flatMap_cons, at?_append, sameSize, at?]
      by_cases inside : offset < piece.text.utf8ByteSize
      · rw [if_pos inside, if_pos inside, map_error_at? (division.uniform piece), sameSize,
          if_neg (Nat.not_le_of_lt inside)]
        rfl
      · rw [if_neg inside, if_neg inside, inductionHypothesis]

end Piece

namespace Sink

variable {sink : Sink} {room : Nat}

/-- What becomes of a sink with so much room when a text is written to it. -/
def fill (sink : Sink) (room : Nat) (text : String) : Sink :=
  { sink with
    contents := sink.contents ++ text.toUTF8.extract 0 room
    room := some (room - text.utf8ByteSize) }

theorem fill_empty (limited : sink.room = some room) : sink.fill room "" = sink := by
  have nothing : sink.contents ++ "".toUTF8.extract 0 room = sink.contents := by
    have empty : "".toUTF8.extract 0 room = ByteArray.empty := by
      apply ByteArray.extract_eq_empty_iff.mpr
      exact Nat.min_le_right room 0
    rw [empty, ByteArray.append_empty]
  have kept : some (room - "".utf8ByteSize) = sink.room := limited.symm
  rw [fill, nothing, kept]

theorem fill_append (sink : Sink) (room : Nat) (first second : String) :
    sink.fill room (first ++ second) =
      (sink.fill room first).fill (room - first.utf8ByteSize) second := by
  simp only [fill, String.toUTF8_eq_toByteArray, String.toByteArray_append,
    ByteArray.extract_append, ByteArray.append_assoc, String.utf8ByteSize_append,
    String.size_toByteArray, Nat.zero_sub, Nat.sub_sub]

/-- Behind a text that does not fit nothing is kept. -/
theorem fill_append_of_lt (overflows : room < String.utf8ByteSize first) (second : String) :
    sink.fill room (first ++ second) = sink.fill room first := by
  have full : room - first.utf8ByteSize = 0 := Nat.sub_eq_zero_of_le (Nat.le_of_lt overflows)
  have limited : (sink.fill room first).room = some 0 := by rw [fill, full]
  rw [fill_append, full]
  simp only [fill, ByteArray.extract_same, ByteArray.append_empty, full, Nat.zero_sub]

theorem fill_pieces (sink : Sink) (room : Nat) (pieces others : List Piece) :
    sink.fill room (Piece.joined (pieces ++ others)) =
      (sink.fill room (Piece.joined pieces)).fill (room - Piece.size pieces)
        (Piece.joined others) := by
  rw [Piece.joined_append, fill_append, Piece.size]

theorem fill_pieces_of_lt {pieces : List Piece} (overflows : room < Piece.size pieces)
    (others : List Piece) :
    sink.fill room (Piece.joined (pieces ++ others)) = sink.fill room (Piece.joined pieces) := by
  rw [Piece.joined_append, fill_append_of_lt overflows]

theorem write_of_room (limited : sink.room = some room) (text : String) :
    sink.write text = (decide (text.utf8ByteSize ≤ room), sink.fill room text) := by
  simp only [write, limited, fill, String.toUTF8_eq_toByteArray, String.size_toByteArray]

/-- As much of the pieces is kept as there is room for, and the piece in which the room ends is
the one that fails. -/
theorem writeAll_of_room (limited : sink.room = some room) (pieces : List Piece) :
    sink.writeAll pieces =
      ((Piece.at? room pieces).map fun piece => piece.error sink.cause,
        sink.fill room (Piece.joined pieces)) := by
  induction pieces generalizing sink room with
  | nil =>
      rw [writeAll, Piece.at?, Piece.joined, fill_empty limited]
      rfl
  | cons piece pieces inductionHypothesis =>
      rw [writeAll, write_of_room limited, Piece.at?, Piece.joined]
      by_cases fits : piece.text.utf8ByteSize ≤ room
      · have limitedStill :
            (sink.fill room piece.text).room = some (room - piece.text.utf8ByteSize) := rfl
        simp only [fits, decide_true]
        rw [inductionHypothesis limitedStill, fill_append, if_neg (Nat.not_lt_of_le fits)]
        rfl
      · have overflows : room < piece.text.utf8ByteSize := Nat.lt_of_not_le fits
        simp only [fits, decide_false]
        rw [fill_append_of_lt overflows, if_pos overflows, Option.map_some]

/-- It does not matter in how many fragments a piece is written. -/
theorem writeAll_fragments (division : Piece.Division) (sink : Sink) (pieces : List Piece) :
    sink.writeAll (pieces.flatMap division.fragments) = sink.writeAll pieces := by
  cases limit : sink.room with
  | none => rw [writeAll_of_unlimited limit, writeAll_of_unlimited limit, division.joined_flatMap]
  | some room =>
      rw [writeAll_of_room limit, writeAll_of_room limit, division.joined_flatMap,
        division.map_error_at?_flatMap]

end Sink

namespace Report

variable {sink : Sink} {room : Nat}

/-- Record entries in turn, up to the first that fails. -/
def writeEntries (report : Report) (sink : Sink) : List Entry → Option Error × Report × Sink
  | [] => (none, report, sink)
  | entry :: rest =>
      match report.writeEntry entry sink with
      | (none, next, sink) => next.writeEntries sink rest
      | (some error, next, sink) => (some error, next, sink)

/-- A report is closed once all its entries are recorded. -/
theorem deliverEntries_eq (report : Report) (sink : Sink) (entries : List Entry) :
    report.deliverEntries sink entries =
      match report.writeEntries sink entries with
      | (none, next, sink) => next.deliverEntries sink []
      | (some error, _, sink) => ⟨sink, some (.recording, error)⟩ := by
  induction entries generalizing report sink with
  | nil => rfl
  | cons entry entries inductionHypothesis =>
      rw [deliverEntries, writeEntries]
      rcases report.writeEntry entry sink with ⟨_ | error, next, sink⟩
      · exact inductionHypothesis next sink
      · rfl

/-- Record entries in turn and close the report, with every piece in fragments. -/
def deliverEntriesIn (division : Piece.Division) (report : Report) (sink : Sink) :
    List Entry → Delivery
  | [] =>
      let written := sink.writeAll (report.closing.flatMap division.fragments)
      ⟨written.2, written.1.map fun error => (.closing, error)⟩
  | entry :: rest =>
      let recorded := report.record entry
      match sink.writeAll (recorded.1.flatMap division.fragments) with
      | (none, sink) => recorded.2.deliverEntriesIn division sink rest
      | (some error, sink) => ⟨sink, some (.recording, error)⟩

/-- Write a report of the given entries with every piece in fragments. -/
def deliverIn (division : Piece.Division) (report : Report) (sink : Sink)
    (entries : List Entry) : Delivery :=
  match sink.writeAll (report.opening.flatMap division.fragments) with
  | (none, sink) => report.deliverEntriesIn division sink entries
  | (some error, sink) => ⟨sink, some (.opening, error)⟩

theorem deliverEntriesIn_eq (division : Piece.Division) (report : Report) (sink : Sink)
    (entries : List Entry) :
    report.deliverEntriesIn division sink entries = report.deliverEntries sink entries := by
  induction entries generalizing report sink with
  | nil => rw [deliverEntriesIn, Sink.writeAll_fragments, deliverEntries, writeClosing]
  | cons entry entries inductionHypothesis =>
      rw [deliverEntriesIn, Sink.writeAll_fragments, deliverEntries, writeEntry]
      rcases sink.writeAll (report.record entry).1 with ⟨_ | error, next⟩
      · exact inductionHypothesis _ next
      · rfl

theorem deliverIn_eq (division : Piece.Division) (report : Report) (sink : Sink)
    (entries : List Entry) :
    report.deliverIn division sink entries = report.deliver sink entries := by
  rw [deliverIn, Sink.writeAll_fragments, deliver, writeOpening]
  rcases sink.writeAll report.opening with ⟨_ | error, next⟩
  · exact deliverEntriesIn_eq division report next entries
  · rfl

theorem writeEntries_of_unlimited (unlimited : sink.room = none) (report : Report)
    (entries : List Entry) :
    let recorded := report.recordAll entries
    report.writeEntries sink entries =
      (none, recorded.2, sink.receive (Piece.joined recorded.1)) := by
  induction entries generalizing report sink with
  | nil =>
      have nothing : sink.contents ++ "".toUTF8 = sink.contents := ByteArray.append_empty
      simp only [writeEntries, recordAll, Piece.joined, Sink.receive, nothing]
  | cons entry entries inductionHypothesis =>
      have entered : report.writeEntry entry sink = (none, (report.record entry).2,
          sink.receive (Piece.joined (report.record entry).1)) := by
        rw [writeEntry, Sink.writeAll_of_unlimited unlimited]
      have unlimitedStill :
          (sink.receive (Piece.joined (report.record entry).1)).room = none := unlimited
      simp only [writeEntries, entered, recordAll]
      rw [inductionHypothesis unlimitedStill, ← Sink.receive_append, ← Piece.joined_append]

/-! ### What fails -/

theorem plain_opening (report : Report) :
    ∀ piece ∈ report.opening, piece.inDocument = false := by
  rw [opening]
  cases report.format <;> simp

theorem plain_record (entry : Entry) (report : Report) :
    ∀ piece ∈ (report.record entry).1, piece.inDocument = false := by
  rw [record]
  cases report.format <;> simp

theorem plain_summaryPieces (tally : Tally) :
    ∀ piece ∈ summaryPieces tally, piece.inDocument = false := by
  simp only [summaryPieces, List.forall_mem_cons, List.forall_mem_map, implies_true, and_self]

theorem closing_of_json {report : Report} (layout : report.format = .json) :
    report.closing = [{ text := report.toJson.render, inDocument := true }, { text := "\n" }] := by
  rw [closing, layout]

/-- Only a JSON report has a document, and the line feed behind it is no part of that. -/
theorem map_error_at?_closing (report : Report) (cause : SystemError) (offset : Nat) :
    (Piece.at? offset report.closing).map (fun piece => piece.error cause) =
      if Piece.size report.closing ≤ offset then none
      else some (if report.format = .json ∧ offset < report.toJson.render.utf8ByteSize then
        .document cause else .io cause) := by
  cases layout : report.format with
  | text =>
      have plain : ∀ piece ∈ report.closing, piece.inDocument = false := by
        rw [closing, layout]
        cases report.tally with
        | none => simp
        | some tally => exact plain_summaryPieces tally
      rw [Piece.map_error_at? plain]
      simp [Piece.errorIn]
  | json =>
      have size : Piece.size report.closing =
          report.toJson.render.utf8ByteSize + "\n".utf8ByteSize := by
        simp only [closing, layout, Piece.size_cons, Piece.size_nil, Nat.add_zero]
      rw [size]
      simp only [closing, layout, Piece.at?]
      by_cases inside : offset < report.toJson.render.utf8ByteSize
      · rw [if_pos inside, if_neg (by omega)]
        simp [inside, Piece.error]
      · rw [if_neg inside]
        by_cases last : offset - report.toJson.render.utf8ByteSize < "\n".utf8ByteSize
        · rw [if_pos last, if_neg (by omega)]
          simp [inside, Piece.error]
        · rw [if_neg last, if_pos (by omega)]
          rfl

theorem writeEntry_of_room (limited : sink.room = some room) (entry : Entry) (report : Report) :
    report.writeEntry entry sink =
      (if Piece.size (report.record entry).1 ≤ room then none else some (.io sink.cause),
        (report.record entry).2, sink.fill room (Piece.joined (report.record entry).1)) := by
  rw [writeEntry, Sink.writeAll_of_room limited, Piece.map_error_at? (plain_record entry report)]
  rfl

theorem writeEntries_of_fits (limited : sink.room = some room) (report : Report)
    (entries : List Entry) (fits : Piece.size (report.recordAll entries).1 ≤ room) :
    report.writeEntries sink entries =
      (none, (report.recordAll entries).2,
        sink.fill room (Piece.joined (report.recordAll entries).1)) := by
  induction entries generalizing report sink room with
  | nil => simp only [writeEntries, recordAll, Piece.joined, Sink.fill_empty limited]
  | cons entry entries inductionHypothesis =>
      simp only [recordAll, Piece.size_append] at fits
      simp only [recordAll, Sink.fill_pieces]
      rw [writeEntries, writeEntry_of_room limited, if_pos (by omega)]
      exact inductionHypothesis rfl _ (Nat.le_sub_of_add_le' fits)

theorem exists_writeEntries_of_overflow (limited : sink.room = some room) (report : Report)
    (entries : List Entry) (overflows : room < Piece.size (report.recordAll entries).1) :
    ∃ next, report.writeEntries sink entries =
      (some (.io sink.cause), next,
        sink.fill room (Piece.joined (report.recordAll entries).1)) := by
  induction entries generalizing report sink room with
  | nil => cases overflows
  | cons entry entries inductionHypothesis =>
      simp only [recordAll, Piece.size_append] at overflows ⊢
      rw [writeEntries, writeEntry_of_room limited]
      by_cases fits : Piece.size (report.record entry).1 ≤ room
      · have overflowsStill : room - Piece.size (report.record entry).1 <
            Piece.size ((report.record entry).2.recordAll entries).1 := by omega
        rw [if_pos fits, Sink.fill_pieces]
        exact inductionHypothesis rfl _ overflowsStill
      · rw [if_neg fits, Sink.fill_pieces_of_lt (Nat.lt_of_not_le fits)]
        exact ⟨_, rfl⟩

theorem deliverEntries_of_room (limited : sink.room = some room) (report : Report)
    (entries : List Entry) :
    let recorded := report.recordAll entries
    report.deliverEntries sink entries =
      ⟨sink.fill room (Piece.joined (recorded.1 ++ recorded.2.closing)),
        if room < Piece.size recorded.1 then some (.recording, .io sink.cause)
        else (Piece.at? (room - Piece.size recorded.1) recorded.2.closing).map
          fun piece => (.closing, piece.error sink.cause)⟩ := by
  intro recorded
  rw [deliverEntries_eq]
  by_cases overflows : room < Piece.size recorded.1
  · obtain ⟨next, wrote⟩ := exists_writeEntries_of_overflow limited report entries overflows
    rw [wrote, if_pos overflows, Sink.fill_pieces_of_lt overflows]
  · have left : (sink.fill room (Piece.joined recorded.1)).room =
        some (room - Piece.size recorded.1) := rfl
    rw [writeEntries_of_fits limited report entries (Nat.le_of_not_lt overflows),
      if_neg overflows, Sink.fill_pieces]
    simp only [deliverEntries, writeClosing]
    rw [Sink.writeAll_of_room left, Option.map_map]
    rfl

/-- Where there is room for a part of a report, the call in which the room ends fails. -/
theorem deliver_of_room (limited : sink.room = some room) (report : Report)
    (entries : List Entry) :
    let recorded := report.recordAll entries
    let before := Piece.size report.opening + Piece.size recorded.1
    report.deliver sink entries =
      ⟨sink.fill room (Piece.joined (report.pieces entries)),
        if room < Piece.size report.opening then some (.opening, .io sink.cause)
        else if room < before then some (.recording, .io sink.cause)
        else (Piece.at? (room - before) recorded.2.closing).map
          fun piece => (.closing, piece.error sink.cause)⟩ := by
  intro recorded before
  have opened := Sink.writeAll_of_room limited report.opening
  rw [Piece.map_error_at? (plain_opening report), ← writeOpening] at opened
  rw [deliver, opened, pieces]
  by_cases inOpening : room < Piece.size report.opening
  · rw [if_neg (Nat.not_le_of_lt inOpening), if_pos inOpening, Sink.fill_pieces_of_lt inOpening]
    rfl
  · have left : (sink.fill room (Piece.joined report.opening)).room =
        some (room - Piece.size report.opening) := rfl
    rw [if_pos (Nat.le_of_not_lt inOpening), if_neg inOpening, Sink.fill_pieces]
    simp only [deliverEntries_of_room left, Nat.sub_sub]
    by_cases inEntries : room < before
    · have overflows : room - Piece.size report.opening < Piece.size recorded.1 := by omega
      rw [if_pos inEntries, if_pos overflows]
      rfl
    · have fits : ¬room - Piece.size report.opening < Piece.size recorded.1 := by omega
      rw [if_neg inEntries, if_neg fits]
      rfl

theorem format_recordAll (report : Report) (entries : List Entry) :
    (report.recordAll entries).2.format = report.format := by
  induction entries generalizing report with
  | nil => rfl
  | cons entry entries inductionHypothesis =>
      have kept : (report.record entry).2.format = report.format := by
        rw [record]
        split <;> rfl
      rw [recordAll, inductionHypothesis, kept]

theorem failure_of_room (limited : sink.room = some room) (report : Report)
    (entries : List Entry) :
    let recorded := report.recordAll entries
    let before := Piece.size (report.opening ++ recorded.1)
    (report.deliver sink entries).failure =
      if Piece.size (report.pieces entries) ≤ room then none
      else if room < Piece.size report.opening then some (.opening, .io sink.cause)
      else if room < before then some (.recording, .io sink.cause)
      else some (.closing,
        if report.format = .json ∧ room < before + recorded.2.toJson.render.utf8ByteSize then
          .document sink.cause else .io sink.cause) := by
  intro recorded before
  have parts : Piece.size (report.pieces entries) =
      before + Piece.size recorded.2.closing := by
    rw [pieces, ← List.append_assoc, Piece.size_append]
  have longer : Piece.size report.opening ≤ before := by
    simp only [before, Piece.size_append]
    exact Nat.le_add_right _ _
  rw [deliver_of_room limited, ← Piece.size_append, parts]
  simp only
  by_cases inOpening : room < Piece.size report.opening
  · rw [if_pos inOpening, if_neg (by omega), if_pos inOpening]
  by_cases inEntries : room < before
  · rw [if_neg inOpening, if_pos inEntries, if_neg (by omega), if_neg inOpening, if_pos inEntries]
  have closes := congrArg (Option.map fun error => (Stage.closing, error))
    (map_error_at?_closing recorded.2 sink.cause (room - before))
  have inDocument : room - before < recorded.2.toJson.render.utf8ByteSize ↔
      room < before + recorded.2.toJson.render.utf8ByteSize := by omega
  have sameLayout : recorded.2.format = report.format := format_recordAll report entries
  simp only [Option.map_map, sameLayout, inDocument] at closes
  rw [if_neg inOpening, if_neg inEntries, if_neg inOpening, if_neg inEntries]
  refine closes.trans ?_
  by_cases fits : Piece.size recorded.2.closing ≤ room - before
  · have fitsWhole : before + Piece.size recorded.2.closing ≤ room := by omega
    rw [if_pos fits, if_pos fitsWhole]
    rfl
  · have overflows : ¬before + Piece.size recorded.2.closing ≤ room := by omega
    rw [if_neg fits, if_neg overflows]
    rfl

theorem recordAll_concat (report : Report) (front : List Entry) (entry : Entry) :
    (report.recordAll (front ++ [entry])).1 =
      (report.recordAll front).1 ++ ((report.recordAll front).2.record entry).1 := by
  induction front generalizing report with
  | nil => exact List.append_nil _
  | cons other front inductionHypothesis =>
      rw [List.cons_append, recordAll, recordAll, inductionHypothesis, List.append_assoc]

/-- Among the entries it is the one in which the room ends that cannot be recorded. -/
theorem writeEntry_of_overflow (limited : sink.room = some room) (report : Report)
    (front : List Entry) (entry : Entry)
    (fits : Piece.size (report.opening ++ (report.recordAll front).1) ≤ room)
    (overflows : room < Piece.size (report.opening ++ (report.recordAll (front ++ [entry])).1)) :
    let reached := report.writeEntries (report.writeOpening sink).2 front
    reached.1 = none ∧ (reached.2.1.writeEntry entry reached.2.2).1 = some (.io sink.cause) := by
  rw [Piece.size_append] at fits overflows
  rw [recordAll_concat, Piece.size_append] at overflows
  have opened : (report.writeOpening sink).2 = sink.fill room (Piece.joined report.opening) := by
    rw [writeOpening, Sink.writeAll_of_room limited]
  have left : (sink.fill room (Piece.joined report.opening)).room =
      some (room - Piece.size report.opening) := rfl
  have fitsBehind : Piece.size (report.recordAll front).1 ≤ room - Piece.size report.opening := by
    omega
  rw [opened, writeEntries_of_fits left report front fitsBehind]
  refine ⟨rfl, ?_⟩
  have leftBehind : ((sink.fill room (Piece.joined report.opening)).fill
      (room - Piece.size report.opening) (Piece.joined (report.recordAll front).1)).room =
        some (room - Piece.size report.opening - Piece.size (report.recordAll front).1) := rfl
  simp only [writeEntry_of_room leftBehind]
  rw [if_neg (by omega)]
  rfl

theorem contents_writeAll_unlimited (pieces : List Piece) :
    (Sink.unlimited.writeAll pieces).2.contents = (Piece.joined pieces).toUTF8 := by
  rw [Sink.writeAll_of_unlimited rfl]
  exact Sink.contents_receive_unlimited _

theorem contents_writeEntries_unlimited (report : Report) (entries : List Entry) :
    (report.writeEntries .unlimited entries).2.2.contents =
      (Piece.joined (report.recordAll entries).1).toUTF8 := by
  have unlimited : Sink.unlimited.room = none := rfl
  rw [writeEntries_of_unlimited unlimited]
  exact Sink.contents_receive_unlimited _

/-- A report that is written where there is room for some bytes only is complete if the room is
enough. Otherwise its first bytes are there, as many as fit, and the call that writes the next
byte fails: the opening, the recording of the very entry that the byte belongs to, or the closing.
It fails in the document if the byte belongs to that, and in the file if it does not. All this
does not depend on the portions in which a call writes its bytes. -/
theorem limited_report_is_cut (format : Format) (summary : Bool) (entries : List Entry)
    (room : Nat) (cause : SystemError) :
    let report := new format summary
    let sink : Sink := { Sink.ofRoom room with cause }
    let opening := (report.writeOpening .unlimited).2.contents
    let recording (entries : List Entry) := (report.writeEntries .unlimited entries).2.2.contents
    let recorded := (report.writeEntries .unlimited entries).2.1
    let closing := (recorded.writeClosing .unlimited).2.contents
    let document := recorded.toJson.render.toUTF8
    let before := (opening ++ recording entries).size
    let whole := opening ++ recording entries ++ closing
    let delivery := report.deliver sink entries
    delivery.sink.contents = whole.extract 0 room ∧
      delivery.failure =
        (if whole.size ≤ room then none
          else if room < opening.size then some (.opening, .io cause)
          else if room < before then some (.recording, .io cause)
          else some (.closing,
            if format = .json ∧ room < before + document.size then .document cause
            else .io cause)) ∧
      (format = .json →
        opening ++ recording entries = .empty ∧ closing = document ++ "\n".toUTF8) ∧
      report.deliver .unlimited entries = ⟨{ Sink.unlimited with contents := whole }, none⟩ ∧
      (∀ front entry rest, entries = front ++ entry :: rest →
        (opening ++ recording front).size ≤ room →
        room < (opening ++ recording (front ++ [entry])).size →
        let reached := report.writeEntries (report.writeOpening sink).2 front
        reached.1 = none ∧ (reached.2.1.writeEntry entry reached.2.2).1 = some (.io cause)) ∧
      ∀ division : Piece.Division, report.deliverIn division sink entries = delivery := by
  intro report sink opening recording recorded closing document before whole delivery
  have limited : sink.room = some room := rfl
  have opens : opening = (Piece.joined report.opening).toUTF8 :=
    contents_writeAll_unlimited report.opening
  have records (entries : List Entry) :
      recording entries = (Piece.joined (report.recordAll entries).1).toUTF8 :=
    contents_writeEntries_unlimited report entries
  have ready : recorded = (report.recordAll entries).2 := by
    have unlimited : Sink.unlimited.room = none := rfl
    simp only [recorded, writeEntries_of_unlimited unlimited]
  have closes : closing = (Piece.joined (report.recordAll entries).2.closing).toUTF8 := by
    rw [← ready]
    exact contents_writeAll_unlimited recorded.closing
  have isWhole : whole = (Piece.joined (report.pieces entries)).toUTF8 := by
    simp only [whole, opens, records, closes, Piece.toUTF8_joined_append, pieces,
      List.append_assoc]
  refine ⟨?_, ?_, ?_, ?_, ?_, fun division => deliverIn_eq division report sink entries⟩
  · have cut := deliver_of_room limited report entries
    simp only [delivery, cut, isWhole]
    exact ByteArray.empty_append
  · have sizeBefore : before =
        Piece.size (report.opening ++ (report.recordAll entries).1) := by
      simp only [before, opens, records, Piece.toUTF8_joined_append, Piece.size_toUTF8_joined]
    have documentSize : document.size = recorded.toJson.render.utf8ByteSize := by
      simp only [document, String.toUTF8_eq_toByteArray, String.size_toByteArray]
    rw [opens, isWhole, Piece.size_toUTF8_joined, Piece.size_toUTF8_joined, sizeBefore,
      documentSize, ready]
    exact failure_of_room limited report entries
  · rintro rfl
    have recordsNothing : (report.recordAll entries).1 = [] :=
      congrArg Prod.fst (recordAll_json (if summary then some [] else none) #[] entries)
    have layout : recorded.format = .json := by
      rw [ready]
      exact format_recordAll report entries
    refine ⟨?_, ?_⟩
    · rw [opens, records, recordsNothing]
      rfl
    · rw [closes, ← ready, closing_of_json layout]
      simp only [document, Piece.joined, String.append_empty, String.toUTF8_eq_toByteArray,
        String.toByteArray_append]
  · rw [deliver_unlimited, isWhole, Sink.receive]
    congr
  · rintro front entry rest rfl fits overflows
    rw [opens, records, Piece.toUTF8_joined_append, Piece.size_toUTF8_joined] at fits overflows
    exact writeEntry_of_overflow limited report front entry fits overflows

end Report

end Tokenizer
