import Tokenizer.Proofs.Channel.Collecting
import Tokenizer.Proofs.Pipeline.Completion
import Tokenizer.Proofs.Scanner.Scans

/-!
Collecting the tokens of a worker gives what scanning alone gives.
-/

namespace Tokenizer

/-- The events of a run, collected, are its result. -/
theorem collected_events (source : String) :
    collected (Run.ofString source).events = (tokenize source).mapError .lexical := by
  rcases Run.events_ofString source with ⟨body, last, proper, sent, ends⟩
  rw [sent, collected_append proper, tokenize, Run.result]
  cases failure : (Run.ofString source).failure with
  | none =>
      rw [failure] at ends
      rcases ends with ⟨finish, isFinish, rfl, whole⟩
      rw [whole, collected, if_pos isFinish]
      rfl
  | some error =>
      rw [failure] at ends
      rcases ends with ⟨rfl, _⟩
      rfl

namespace Collection

/-- The result that a collection has, or will have if it goes on with a channel
to which nothing is sent any more. -/
def verdict (channel : Channel) (collection : Collection) :
    Option (Except ChannelError (List Token)) :=
  match collection.result with
  | some result => some result
  | none => channel.collect?.map fun result =>
      result.map fun tokens => collection.tokens.toList ++ tokens

theorem verdict_empty (channel : Channel) : verdict channel {} = channel.collect? := by
  rw [verdict]
  cases channel.collect? with
  | none => rfl
  | some result => cases result <;> rfl

theorem verdict_consume (channel : Channel) (collection : Collection) :
    (collector.consume (channel, collection)).2.verdict
      (collector.consume (channel, collection)).1 = collection.verdict channel := by
  rcases collection with ⟨tokens, result⟩
  cases result with
  | some result => rfl
  | none =>
      cases pulled : channel.pull? .iterate with
      | none => simp [Consumer.consume, collector, pulled]
      | some answered =>
          rcases answered with ⟨item, next⟩
          have pulls := Channel.pull?_eq_some_iff.mp pulled
          rw [Consumer.consume_of_pulls rfl pulls, verdict, verdict,
            Channel.collect?_of_pulls pulls]
          cases item with
          | none => simp [collector, Except.map]
          | some answer =>
              cases answer with
              | error error => rfl
              | ok token =>
                  simp only [collector]
                  cases collects : next.collect? with
                  | none => rfl
                  | some result => cases result <;> simp [Except.map]

theorem verdict_iterate (pulls : Nat) (start : Channel × Collection) :
    (collector.consume^[pulls] start).2.verdict (collector.consume^[pulls] start).1 =
      start.2.verdict start.1 := by
  induction pulls with
  | zero => rfl
  | succ pulls inductionHypothesis =>
      rw [Function.iterate_succ_apply', ← inductionHypothesis]
      exact verdict_consume _ _

end Collection

theorem collector_settles : collector.Settles := by
  apply Consumer.settles_of_stops
  · intro collection
    rfl
  · intro collection error
    rfl
  · intro collection item
    rfl

theorem collector_demand_eq_none_iff (collection : Collection) :
    collector.demand collection = none ↔ ∃ result, collection.result = some result := by
  cases ended : collection.result <;> simp [collector, ended]

/-- The result of a collection is that of the scan, at whatever moment it is
known. -/
theorem result_of_follows {source : String} {pipeline : Pipeline Collection}
    {result : Except ChannelError (List Token)}
    (follows : pipeline.Follows collector (Channel.ofRun (Run.ofString source), {}))
    (ended : pipeline.progress.result = some result) :
    result = (tokenize source).mapError .lexical := by
  rcases follows.reached with ⟨pulls, channel, reached, _⟩
  have same : pipeline.progress.verdict channel =
      (Channel.ofRun (Run.ofString source)).collect? := by
    simpa only [reached, Collection.verdict_empty] using
      Collection.verdict_iterate pulls (Channel.ofRun (Run.ofString source), {})
  have collects : (Channel.ofRun (Run.ofString source)).collect? =
      some (collected (Run.ofString source).events) := Channel.collect?_eq_collected rfl rfl
  rw [collects, collected_events, Collection.verdict, ended] at same
  exact Option.some.inj same

/-- What is collected of a source does not depend on the schedule. -/
theorem tokenizeConcurrently_eq (schedule : List Turn) (source : String) :
    tokenizeConcurrently schedule source = (tokenize source).mapError .lexical := by
  have follows := Pipeline.follows_ofString collector source {}
  have left := Pipeline.demand_complete follows collector_settles schedule
  rcases (collector_demand_eq_none_iff _).mp left with ⟨result, ended⟩
  rw [tokenizeConcurrently, ended, Option.getD_some]
  exact result_of_follows (follows.complete schedule) ended

/-- Whatever the schedule, a worker and a collector together give what scanning
alone gives, and never another error than that of the scan. A collection that
has ended is right also before everything else is done. -/
theorem tokenizeConcurrently_agrees (schedule : List Turn) (source : String) :
    (∀ tokens, tokenizeConcurrently schedule source = .ok tokens ↔
      tokenize source = .ok tokens) ∧
    (∀ error, tokenizeConcurrently schedule source = .error (.lexical error) ↔
      tokenize source = .error error) ∧
    (∀ error, tokenizeConcurrently schedule source = .error error →
      ∃ cause, error = .lexical cause) ∧
    ∀ result, ((Pipeline.ofString source {}).play collector schedule).progress.result =
      some result → result = (tokenize source).mapError .lexical := by
  have follows := Pipeline.follows_ofString collector source {}
  rw [tokenizeConcurrently_eq]
  refine ⟨?_, ?_, ?_, fun _ => result_of_follows (follows.play schedule)⟩
  · intro tokens
    cases tokenize source <;> simp [Except.mapError]
  · intro error
    cases tokenize source <;> simp [Except.mapError]
  · intro error failed
    cases outcome : tokenize source with
    | ok tokens =>
        rw [outcome] at failed
        cases failed
    | error cause =>
        rw [outcome] at failed
        cases failed
        exact ⟨cause, rfl⟩

end Tokenizer
