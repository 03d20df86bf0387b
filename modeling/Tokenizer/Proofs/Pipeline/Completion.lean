import Tokenizer.Proofs.Pipeline.Following

/-!
What a schedule leaves undone is done after it.

The worker comes nearer to its end with each of its turns. Once it is done the
consumer never waits, so a consumer whose pulls come to an end has made the last
of them.
-/

namespace Tokenizer

variable {Progress : Type}

/-- Each pull takes an event from the queue, uses up some of the surplus or is
the last. -/
def Consumer.Settles (consumer : Consumer Progress) : Prop :=
  ∀ {progress : Progress} {pull : Pull} {channel next : Channel} {item : Item},
    consumer.demand progress = some pull → Channel.Pulls pull channel item next →
    consumer.demand (consumer.accept progress item) = none ∨
      next.queue.length + consumer.surplus (consumer.accept progress item) <
        channel.queue.length + consumer.surplus progress

namespace Consumer

variable {consumer : Consumer Progress}

/-- A consumer that leaves when the stream is over or fails makes no more pulls than there are
events. -/
theorem settles_of_stops
    (stopsAtEnd : ∀ progress, consumer.demand (consumer.accept progress none) = none)
    (stopsAtError : ∀ progress error,
      consumer.demand (consumer.accept progress (some (.error error))) = none)
    (constant : ∀ progress item,
      consumer.surplus (consumer.accept progress item) = consumer.surplus progress) :
    consumer.Settles := by
  intro progress pull channel next item _ pulls
  cases pulls with
  | past finished =>
      apply Or.inl
      cases pull with
      | iterate => exact stopsAtEnd progress
      | next | timed => exact stopsAtError progress .finished
  | disconnected => exact .inl (stopsAtError progress .disconnected)
  | @event event rest unfinished queued =>
      apply Or.inr
      rw [constant, queued]
      exact Nat.add_lt_add_right (Nat.lt_succ_self rest.length) _

theorem consume_of_demand_none {state : Channel × Progress}
    (left : consumer.demand state.2 = none) : consumer.consume state = state := by
  rcases state with ⟨channel, progress⟩
  simp only [consume, left]

/-- A consumer that has left stays where it is, so it can leave in one place only. -/
theorem iterate_eq_of_demand_none {start : Channel × Progress} {few many : Nat}
    (leftEarly : consumer.demand (consumer.consume^[few] start).2 = none)
    (leftLate : consumer.demand (consumer.consume^[many] start).2 = none) :
    consumer.consume^[few] start = consumer.consume^[many] start := by
  have rests : ∀ turns more, consumer.demand (consumer.consume^[turns] start).2 = none →
      consumer.consume^[more + turns] start = consumer.consume^[turns] start := by
    intro turns more left
    rw [Function.iterate_add_apply]
    exact Function.iterate_fixed (consume_of_demand_none left) more
  rcases Nat.le_total few many with atMost | atMost
  · rw [← Nat.sub_add_cancel atMost, rests few _ leftEarly]
  · rw [← Nat.sub_add_cancel atMost, rests many _ leftLate]

end Consumer

namespace Pipeline

variable (consumer : Consumer Progress)

/-! ### The worker -/

theorem worker_take_consumer (pipeline : Pipeline Progress) :
    (pipeline.take consumer .consumer).worker = pipeline.worker := by
  simp only [take]
  split
  · rfl
  · split <;> rfl

theorem work_take_worker_le (pipeline : Pipeline Progress) :
    (pipeline.take consumer .worker).worker.work ≤ pipeline.worker.work - 1 :=
  pipeline.worker.work_advance_le pipeline.channel

theorem work_play_rounds_le (rounds : Nat) (pipeline : Pipeline Progress) :
    (pipeline.play consumer
      (List.replicate rounds [Turn.worker, Turn.consumer]).flatten).worker.work ≤
      pipeline.worker.work - rounds := by
  induction rounds generalizing pipeline with
  | zero => exact Nat.le_refl _
  | succ rounds inductionHypothesis =>
      rw [List.replicate_succ, List.flatten_cons]
      have others := inductionHypothesis ((pipeline.take consumer .worker).take consumer .consumer)
      rw [worker_take_consumer] at others
      have here := work_take_worker_le consumer pipeline
      refine Nat.le_trans others ?_
      omega

theorem worker_settleWorker (pipeline : Pipeline Progress) :
    ∃ outcome, (pipeline.settleWorker consumer).worker = .joined outcome := by
  apply Worker.eq_joined_of_work_zero
  have bound := work_play_rounds_le consumer pipeline.worker.work pipeline
  rw [settleWorker]
  omega

/-! ### The consumer -/

variable {consumer}

theorem play_consumer_of_demand_none {pipeline : Pipeline Progress}
    (left : consumer.demand pipeline.progress = none) (turns : Nat) :
    (pipeline.play consumer (List.replicate turns .consumer)).progress = pipeline.progress := by
  induction turns generalizing pipeline with
  | zero => rfl
  | succ turns inductionHypothesis =>
      have unchanged : (pipeline.take consumer .consumer).progress = pipeline.progress := by
        simp only [take, left]
      have leftStill : consumer.demand (pipeline.take consumer .consumer).progress = none := by
        rw [unchanged, left]
      rw [List.replicate_succ]
      exact (inductionHypothesis leftStill).trans unchanged

/-- Without a sender, a consumer that wants to pull does so. -/
theorem take_consumer_of_demand {pipeline : Pipeline Progress} {pull : Pull}
    (noSender : pipeline.channel.senders = 0)
    (demanded : consumer.demand pipeline.progress = some pull) :
    ∃ item next, Channel.Pulls pull pipeline.channel item next ∧
      pipeline.take consumer .consumer =
        ⟨pipeline.worker, next, consumer.accept pipeline.progress item⟩ := by
  rcases Channel.exists_pulls noSender pull with ⟨item, next, pulls⟩
  refine ⟨item, next, pulls, ?_⟩
  simp only [take, demanded, Channel.pull?_eq_some_iff.mpr pulls]

theorem demand_play_consumer {pipeline : Pipeline Progress} {turns : Nat}
    (settles : consumer.Settles) (noSender : pipeline.channel.senders = 0)
    (bound : pipeline.channel.queue.length + consumer.surplus pipeline.progress < turns) :
    consumer.demand (pipeline.play consumer (List.replicate turns .consumer)).progress = none := by
  induction turns generalizing pipeline with
  | zero => omega
  | succ turns inductionHypothesis =>
      cases demanded : consumer.demand pipeline.progress with
      | none => rw [play_consumer_of_demand_none demanded, demanded]
      | some pull =>
          rcases take_consumer_of_demand noSender demanded with ⟨item, next, pulls, taken⟩
          rw [List.replicate_succ, play, List.foldl_cons, taken]
          rcases settles demanded pulls with isLast | fewer
          · have unchanged : (play consumer
                ⟨pipeline.worker, next, consumer.accept pipeline.progress item⟩
                (List.replicate turns .consumer)).progress =
                consumer.accept pipeline.progress item := play_consumer_of_demand_none isLast turns
            exact (congrArg consumer.demand unchanged).trans isLast
          · refine inductionHypothesis (pulls.senders_eq.trans noSender) ?_
            exact Nat.lt_of_lt_of_le fewer (Nat.le_of_lt_succ bound)

/-! ### Complete runs -/

variable {start : Channel × Progress} {pipeline : Pipeline Progress}

theorem Follows.complete (follows : Follows consumer start pipeline) (schedule : List Turn) :
    Follows consumer start (pipeline.complete consumer schedule) :=
  ((follows.play schedule).play _).play _

theorem worker_play_consumer (turns : Nat) :
    (pipeline.play consumer (List.replicate turns .consumer)).worker = pipeline.worker := by
  induction turns generalizing pipeline with
  | zero => rfl
  | succ turns inductionHypothesis =>
      rw [List.replicate_succ, play, List.foldl_cons]
      exact inductionHypothesis.trans (worker_take_consumer consumer pipeline)

theorem worker_complete (schedule : List Turn) :
    ∃ outcome, (pipeline.complete consumer schedule).worker = .joined outcome := by
  rw [complete, settleConsumer, worker_play_consumer]
  exact worker_settleWorker consumer (pipeline.play consumer schedule)

theorem demand_complete (follows : Follows consumer start pipeline) (settles : consumer.Settles)
    (schedule : List Turn) :
    consumer.demand (pipeline.complete consumer schedule).progress = none := by
  have followsStill : Follows consumer start
      ((pipeline.play consumer schedule).settleWorker consumer) := (follows.play schedule).play _
  rcases worker_settleWorker consumer (pipeline.play consumer schedule) with ⟨outcome, joined⟩
  rw [complete, settleConsumer]
  apply demand_play_consumer settles
  · rw [followsStill.held, joined]
    rfl
  · exact Nat.lt_succ_self _

/-- Whatever the schedule, a consumer ends where it would end had it pulled from a channel
with the whole run on it. -/
theorem progress_complete {source : String} {progress : Progress} (settles : consumer.Settles)
    (schedule : List Turn) {turns : Nat} {reached : Channel × Progress}
    (alone : consumer.consume^[turns] (Channel.ofRun (Run.ofString source), progress) = reached)
    (left : consumer.demand reached.2 = none) :
    ((ofString source progress).complete consumer schedule).progress = reached.2 := by
  have follows := follows_ofString consumer source progress
  have leftTogether := demand_complete follows settles schedule
  rcases (follows.complete schedule).reached with ⟨pulls, channel, together, _⟩
  rw [← alone] at left ⊢
  have leftThere : consumer.demand (consumer.consume^[pulls]
      (Channel.ofRun (Run.ofString source), progress)).2 = none := by
    rw [together]
    exact leftTogether
  rw [Consumer.iterate_eq_of_demand_none left leftThere, together]

end Pipeline

end Tokenizer
