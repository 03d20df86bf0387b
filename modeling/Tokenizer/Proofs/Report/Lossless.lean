import Tokenizer.Proofs.Json.RoundTrip
import Tokenizer.Proofs.Report.Written

/-!
Nothing of the entries is lost in a JSON report.

A report is one document and a line feed. What the document says is read back by the grammar,
so reports that are the same are reports of the same labels, lines and lexemes.
-/

namespace Tokenizer

namespace Entry

/-- What a JSON report keeps of an entry. -/
def columns (entry : Entry) : String × UInt32 × String :=
  (entry.label, entry.token.line, entry.token.lexeme)

def value (entry : Entry) : Json.Value :=
  .object [("kind", .string entry.label), ("line", .number entry.token.line.toNat 0),
    ("lexeme", .string entry.token.lexeme)]

theorem columns_eq_of_value_eq {entry other : Entry} (same : entry.value = other.value) :
    entry.columns = other.columns := by
  simp only [value, Json.Value.object.injEq, List.cons.injEq, Prod.mk.injEq,
    Json.Value.string.injEq, Json.Value.number.injEq, Int.natCast_inj, true_and, and_true] at same
  obtain ⟨label, line, lexeme⟩ := same
  rw [columns, columns, label, UInt32.toNat.inj line, lexeme]

theorem map_columns_eq_of_map_value_eq {entries others : List Entry}
    (same : entries.map value = others.map value) :
    entries.map columns = others.map columns := by
  induction entries generalizing others with
  | nil =>
      obtain rfl := List.map_eq_nil_iff.mp same.symm
      rfl
  | cons entry entries inductionHypothesis =>
      cases others with
      | nil => cases same
      | cons other others =>
          rw [List.map_cons, List.map_cons] at same ⊢
          obtain ⟨sameValue, sameValues⟩ := List.cons.inj same
          rw [columns_eq_of_value_eq sameValue, inductionHypothesis sameValues]

end Entry

namespace Report

def countsValue (tally : Tally) : Json.Value :=
  .object (tally.map fun counted => (counted.1, .number counted.2 0))

/-- A report as it is read back: the entries, and the summary if one is wanted. -/
def value (summary : Bool) (entries : List Entry) : Json.Value :=
  .object (("tokens", .array (entries.map Entry.value)) ::
    if summary then [("summary", countsValue (.ofEntries entries))] else [])

def document (summary : Bool) (entries : List Entry) : Json :=
  (Report.mk .json (counts? summary entries) entries.toArray).toJson

theorem toValue_document (summary : Bool) (entries : List Entry) :
    (document summary entries).toValue = value summary entries := by
  have tokens : (Json.array (entries.map Entry.toJson)).toValue =
      .array (entries.map Entry.value) := by
    rw [Json.toValue_array, List.map_map]
    rfl
  have counted : (Json.object ((Tally.ofEntries entries).map fun counted =>
      (counted.1, Json.natural counted.2))).toValue = countsValue (.ofEntries entries) := by
    rw [Json.toValue_object, List.map_map]
    rfl
  rw [document, toJson, Json.toValue_object, List.map_cons, tokens, value]
  cases summary with
  | false => rfl
  | true =>
      simp only [counts?, if_true, Option.map_some, Option.toList_some, List.map_singleton, counted]

theorem read?_document (summary : Bool) (entries : List Entry) :
    Json.read? (document summary entries).render = some (value summary entries) := by
  rw [Json.read?_render, toValue_document]

theorem deliver_json (summary : Bool) (entries : List Entry) :
    (new .json summary).deliver .unlimited entries =
      ⟨Sink.unlimited.receive ((document summary entries).render ++ "\n"), none⟩ := by
  rw [deliver_unlimited, pieces_new_json]
  simp only [Piece.joined, String.append_empty, document]

theorem eq_of_value_eq {summary otherSummary : Bool} {entries others : List Entry}
    (same : value summary entries = value otherSummary others) :
    summary = otherSummary ∧ entries.map Entry.columns = others.map Entry.columns := by
  simp only [value, Json.Value.object.injEq, List.cons.injEq, Prod.mk.injEq,
    Json.Value.array.injEq, true_and] at same
  refine ⟨?_, Entry.map_columns_eq_of_map_value_eq same.1⟩
  cases summary <;> cases otherSummary <;> first | rfl | cases same.2

/-- A JSON report is one document and a line feed. The document says all about the entries in
their order, and has a summary if one is wanted. So no two lists of labels, lines and lexemes
have the same report. -/
theorem json_is_lossless (summary : Bool) (entries : List Entry) :
    let delivered (summary : Bool) (entries : List Entry) :=
      (new .json summary).deliver .unlimited entries
    (delivered summary entries).failure = none ∧
      (∃ text : String,
        (delivered summary entries).sink.contents = (text ++ "\n").toUTF8 ∧
          Json.read? text = some (value summary entries)) ∧
      ∀ otherSummary others, (delivered summary entries).sink.contents =
          (delivered otherSummary others).sink.contents →
        summary = otherSummary ∧ entries.map Entry.columns = others.map Entry.columns := by
  intro delivered
  have contents (summary : Bool) (entries : List Entry) :
      (delivered summary entries).sink.contents =
        ((document summary entries).render ++ "\n").toUTF8 := by
    simp only [delivered, deliver_json, Sink.contents_receive_unlimited]
  refine ⟨?_, ⟨_, contents summary entries, read?_document summary entries⟩, ?_⟩
  · exact congrArg Delivery.failure (deliver_json summary entries)
  · intro otherSummary others same
    rw [contents, contents, String.toUTF8_eq_toByteArray, String.toUTF8_eq_toByteArray,
      String.toByteArray_inj, String.append_left_inj] at same
    -- The same bytes are the same document, and a document says one thing only.
    apply eq_of_value_eq
    apply Option.some.inj
    rw [← read?_document, ← read?_document, same]

end Report

end Tokenizer
