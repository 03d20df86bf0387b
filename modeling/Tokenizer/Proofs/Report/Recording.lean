import Tokenizer.Command.Lex
import Tokenizer.Proofs.Pipeline.Completion
import Tokenizer.Proofs.Report.Written
import Tokenizer.Proofs.Scanner.Scans

/-!
A report that is recorded while tokens arrive.

Each token that the consumer accepts leaves less to be recorded, and what is delivered in the
end stays the same. So the schedule cannot be seen in a report.
-/

namespace Tokenizer

theorem Sink.exists_writeAll {sink : Sink} (unlimited : sink.room = none) (pieces : List Piece) :
    ∃ next : Sink, next.room = none ∧ sink.writeAll pieces = (none, next) :=
  ⟨sink.receive (Piece.joined pieces), unlimited, writeAll_of_unlimited unlimited pieces⟩

/-- What is answered to the one who wants a run reported: the number of its tokens, unless the
scan failed. -/
def Run.answer (run : Run) : Except Error Nat :=
  match run.failure with
  | none => .ok run.tokens.length
  | some error => .error (.lexical error)

namespace Recording

variable {keywords : KeywordSet} {pull : Pull} {recording middle later : Recording}
  {tokens others : List Token}

theorem consumer_settles : (consumer keywords pull).Settles := by
  apply Consumer.settles_of_stops
  · intro recording
    rfl
  · intro recording error
    rfl
  · intro recording item
    rfl

theorem demand_eq (unended : recording.result = none) :
    (consumer keywords pull).demand recording = some pull := by
  simp [consumer, unended]

/-- The later recording holds these tokens too: to deliver them and anything behind them from
the earlier one is to deliver what is behind them from the later one. -/
structure Records (keywords : KeywordSet) (earlier : Recording) (tokens : List Token)
    (later : Recording) : Prop where
  unlimited : later.sink.room = none
  count : later.count = earlier.count + tokens.length
  delivers : ∀ more,
    earlier.report.deliverEntries earlier.sink (keywords.entries tokens ++ more) =
      later.report.deliverEntries later.sink more

theorem Records.refl (unlimited : recording.sink.room = none) :
    Records keywords recording [] recording :=
  ⟨unlimited, rfl, fun _ => rfl⟩

theorem Records.trans (first : Records keywords recording tokens middle)
    (second : Records keywords middle others later) :
    Records keywords recording (tokens ++ others) later where
  unlimited := second.unlimited
  count := by rw [second.count, first.count, List.length_append, Nat.add_assoc]
  delivers := by
    intro more
    rw [KeywordSet.entries, List.map_append, List.append_assoc]
    exact (first.delivers _).trans (second.delivers more)

theorem records_accept (keywords : KeywordSet) (pull : Pull)
    (unlimited : recording.sink.room = none) (token : Token) :
    let later := (consumer keywords pull).accept recording (some (.ok token))
    Records keywords recording [token] later ∧
      later.result = if token.isFinish then some (.ok later.count) else none := by
  obtain ⟨next, unlimitedStill, written⟩ := Sink.exists_writeAll unlimited
    (recording.report.record ⟨keywords.classify token, token⟩).1
  have entered : recording.report.writeEntry ⟨keywords.classify token, token⟩ recording.sink =
      (none, (recording.report.record ⟨keywords.classify token, token⟩).2, next) := by
    rw [Report.writeEntry, written]
  simp only [consumer, entered]
  refine ⟨⟨unlimitedStill, rfl, ?_⟩, trivial⟩
  intro more
  rw [KeywordSet.entries, List.map_singleton, List.singleton_append, Report.deliverEntries,
    entered]

/-- The consumer records the tokens that are queued before an event and then takes the event. -/
theorem exists_iterate (keywords : KeywordSet) (pull : Pull) {channel : Channel} {event : Event}
    {rest : List Event} (unfinished : channel.finished = false)
    (queued : channel.queue = tokens.map Event.token ++ event :: rest)
    (proper : ∀ token ∈ tokens, token.isFinish = false) (unlimited : recording.sink.room = none)
    (unended : recording.result = none) :
    ∃ next later, Records keywords recording tokens later ∧
      (consumer keywords pull).consume^[tokens.length + 1] (channel, recording) =
        (next, (consumer keywords pull).accept later (some event.answer)) := by
  have demanded : (consumer keywords pull).demand recording = some pull := demand_eq unended
  induction tokens generalizing channel recording with
  | nil =>
      have consumed := Consumer.consume_of_pulls demanded (.event unfinished queued)
      exact ⟨_, recording, .refl unlimited, consumed⟩
  | cons token tokens inductionHypothesis =>
      rw [List.forall_mem_cons] at proper
      obtain ⟨first, result⟩ := records_accept keywords pull unlimited token
      rw [if_neg (by simp [proper.1])] at result
      let afterToken : Channel := { channel with queue := tokens.map Event.token ++ event :: rest,
                                                 finished := token.isFinish }
      have consumed : (consumer keywords pull).consume (channel, recording) =
          (afterToken, (consumer keywords pull).accept recording (some (.ok token))) :=
        Consumer.consume_of_pulls demanded (.event unfinished queued)
      have queuedStill : afterToken.queue = tokens.map Event.token ++ event :: rest := rfl
      rcases inductionHypothesis proper.1 queuedStill proper.2 first.unlimited result
        (demand_eq result) with ⟨next, later, others, reached⟩
      refine ⟨next, later, first.trans others, ?_⟩
      rw [List.length_cons, Function.iterate_succ_apply, consumed]
      exact reached

/-- What is left to do when all tokens are recorded is to close the report. -/
theorem Records.deliverEntries_eq (records : Records keywords recording tokens later) :
    recording.report.deliverEntries recording.sink (keywords.entries tokens) =
      ⟨(later.report.writeClosing later.sink).2, none⟩ := by
  obtain ⟨next, _, written⟩ := Sink.exists_writeAll records.unlimited later.report.closing
  have closed := records.delivers []
  rw [List.append_nil] at closed
  rw [closed, Report.deliverEntries, Report.writeClosing, written]
  rfl

/-- Pulled from a channel with a whole run on it, all its tokens are recorded and the result
is the answer. -/
theorem exists_iterate_ofRun (keywords : KeywordSet) (pull : Pull) (source : String)
    (unlimited : recording.sink.room = none) (unended : recording.result = none)
    (uncounted : recording.count = 0) :
    ∃ turns channel later, (consumer keywords pull).consume^[turns]
        (Channel.ofRun (Run.ofString source), recording) = (channel, later) ∧
      Records keywords recording (Run.ofString source).tokens later ∧
      later.result = some (Run.ofString source).answer := by
  rcases Run.events_ofString source with ⟨body, last, proper, sent, ends⟩
  have queued : (Channel.ofRun (Run.ofString source)).queue = body.map Event.token ++ [last] :=
    sent
  rcases exists_iterate keywords pull rfl queued proper unlimited unended with
    ⟨next, middle, records, reached⟩
  rw [Run.answer]
  cases failure : (Run.ofString source).failure with
  | none =>
      rw [failure] at ends
      rcases ends with ⟨finish, isFinish, rfl, whole⟩
      obtain ⟨recorded, result⟩ := records_accept keywords pull records.unlimited finish
      have all := records.trans recorded
      rw [← whole] at all
      rw [if_pos isFinish, all.count, uncounted, Nat.zero_add] at result
      exact ⟨_, _, _, reached, all, result⟩
  | some error =>
      rw [failure] at ends
      rcases ends with ⟨rfl, rfl⟩
      exact ⟨_, _, _, reached, ⟨records.unlimited, records.count, records.delivers⟩, rfl⟩

end Recording

/-- A report of a source is the report of the tokens of its run, also of a run that fails. -/
theorem reportSource_unlimited (schedule : List Turn) (keywords : KeywordSet) (pull : Pull)
    (format : Format) (summary : Bool) (source : String) :
    let run := Run.ofString source
    let delivery := (Report.new format summary).deliver .unlimited (keywords.entries run.tokens)
    delivery.failure = none ∧
      reportSource schedule keywords pull format summary source .unlimited =
        ⟨run.answer, delivery.sink.contents⟩ := by
  intro run delivery
  have roomy : Sink.unlimited.room = none := rfl
  obtain ⟨sink, unlimited, opened⟩ :=
    Sink.exists_writeAll roomy (Report.new format summary).opening
  rw [← Report.writeOpening] at opened
  let start : Recording := ⟨Report.new format summary, sink, 0, none⟩
  have startsUnlimited : start.sink.room = none := unlimited
  rcases Recording.exists_iterate_ofRun keywords pull source startsUnlimited rfl rfl with
    ⟨turns, channel, later, reached, records, result⟩
  have delivered : delivery = ⟨(later.report.writeClosing later.sink).2, none⟩ := by
    simp only [delivery, Report.deliver, opened]
    exact records.deliverEntries_eq
  have recorded := Pipeline.progress_complete Recording.consumer_settles schedule reached
    (by simp [Recording.consumer, result])
  obtain ⟨closed, _, closes⟩ := Sink.exists_writeAll records.unlimited later.report.closing
  rw [← Report.writeClosing] at closes
  rw [delivered]
  refine ⟨rfl, ?_⟩
  simp only [reportSource, opened]
  rw [recorded, result, closes, Run.answer]
  cases (Run.ofString source).failure <;> rfl

end Tokenizer
