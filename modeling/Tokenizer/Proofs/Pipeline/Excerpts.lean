import Tokenizer.Proofs.Channel.Finality
import Tokenizer.Proofs.Pipeline.Completion

/-!
A consumer that pulls from a worker as often as it likes and leaves.

The run fixes what any pull answers, so neither the schedule nor the moment of leaving can be
seen in the items. The worker sends into the void from then on; its result is that of the run.
-/

namespace Tokenizer

/-! ### The items of a run -/

/-- What a run gives to its receiver, up to the item with which the stream ends. -/
def Run.items (run : Run) : List Item :=
  run.tokens.map (fun token => some (.ok token)) ++
    run.failure.toList.map fun error => some (.error (.lexical error))

/-- Whether a `finish` token or the failure of the run is among the items. -/
def Run.EndsAmong (run : Run) (items : List Item) : Prop :=
  (∃ token, token.isFinish = true ∧ some (.ok token) ∈ items) ∨
    ∃ error, run.failure = some error ∧ some (.error (.lexical error)) ∈ items

/-- What is answered to pulls, one after the other, by a stream of items that ends with them. -/
def answers (items : List Item) (plan : List Pull) : List Item :=
  plan.mapIdx fun index pull => items[index]?.getD pull.pastEnd

theorem Run.items_eq_map_events (run : Run) :
    run.items = run.events.map fun event => some event.answer := by
  rw [items, events, List.map_append, List.map_map, List.map_map]
  rfl

theorem Run.events_ne_nil (source : String) : (ofString source).events ≠ [] := by
  rcases events_ofString source with ⟨body, last, _, sent, _⟩
  simp [sent]

/-- The stream of a run ends with its last event and with no other. -/
theorem Run.isLast_iff {source : String} {front rest : List Event} {event : Event}
    (sent : (ofString source).events = front ++ event :: rest) :
    event.isLast = true ↔ rest = [] := by
  rcases events_ofString source with ⟨body, last, proper, whole, ends⟩
  rw [whole] at sent
  have isLast : last.isLast = true := by
    cases failure : (ofString source).failure with
    | none =>
        rw [failure] at ends
        rcases ends with ⟨finish, isFinish, rfl, _⟩
        exact isFinish
    | some error =>
        rw [failure] at ends
        rcases ends with ⟨rfl, _⟩
        rfl
  rcases List.eq_nil_or_concat' rest with rfl | ⟨init, final, rfl⟩
  · obtain ⟨_, same⟩ := List.append_inj' sent rfl
    cases same
    simp [isLast]
  · have inBody : event ∈ body.map Event.token := by
      rw [← List.cons_append, ← List.append_assoc] at sent
      rw [(List.append_inj' sent rfl).1]
      simp
    rcases List.mem_map.mp inBody with ⟨token, membership, rfl⟩
    simp [Event.isLast, proper token membership]

theorem mem_answers {items : List Item} {plan : List Pull} {item : Item}
    (membership : item ∈ answers items plan) : item ∈ items ∨ ∃ pull, item = Pull.pastEnd pull := by
  rcases List.mem_mapIdx.mp membership with ⟨index, inside, rfl⟩
  cases given : items[index]? with
  | none => exact .inr ⟨plan[index], rfl⟩
  | some item => exact .inl (List.mem_of_getElem? given)

theorem endsStream_pastEnd (pull : Pull) : endsStream pull.pastEnd = false := by
  cases pull <;> rfl

/-- Only a `finish` token and the failure of the run end its stream. -/
theorem Run.any_endsStream_iff {run : Run} {plan : List Pull} {seen : List Item}
    (answered : seen ⊆ answers run.items plan) :
    seen.any endsStream = true ↔ run.EndsAmong seen := by
  rw [List.any_eq_true]
  constructor
  · rintro ⟨item, membership, ends⟩
    rcases mem_answers (answered membership) with given | ⟨pull, rfl⟩
    · rcases List.mem_append.mp given with isToken | isFailure
      · rcases List.mem_map.mp isToken with ⟨token, _, rfl⟩
        exact .inl ⟨token, ends, membership⟩
      · rcases List.mem_map.mp isFailure with ⟨error, failed, rfl⟩
        exact .inr ⟨error, Option.mem_toList.mp failed, membership⟩
    · rw [endsStream_pastEnd] at ends
      cases ends
  · rintro (⟨token, isFinish, membership⟩ | ⟨error, _, membership⟩)
    · exact ⟨_, membership, isFinish⟩
    · exact ⟨_, membership, rfl⟩

/-! ### The puller alone -/

/-- How far a receiver has come with its planned pulls when the whole run is on the channel. -/
structure Midway (source : String) (plan : List Pull) (state : Channel × Pulling) : Prop where
  items : state.2.items.toList =
    (answers (Run.ofString source).items plan).take state.2.items.size
  plan : state.2.plan = plan.drop state.2.items.size
  queue : state.1.queue = (Run.ofString source).events.drop state.2.items.size
  senders : state.1.senders = 0
  finished : state.1.finished = true ↔ state.1.queue = []
  ended : state.1.finished = state.2.items.toList.any endsStream

variable {source : String} {plan : List Pull}

theorem midway_start : Midway source plan (Channel.ofRun (Run.ofString source), { plan }) where
  items := rfl
  plan := rfl
  queue := rfl
  senders := rfl
  finished := by simp [Channel.ofRun, Channel.settle, Channel.new, Run.events_ne_nil]
  ended := rfl

/-- A pull is answered with the item that is due. -/
theorem Midway.item_eq {channel next : Channel} {pulling : Pulling} {pull : Pull} {item : Item}
    (midway : Midway source plan (channel, pulling))
    (pulls : Channel.Pulls pull channel item next) :
    item = (Run.ofString source).items[pulling.items.size]?.getD pull.pastEnd ∧
      next.queue = (Run.ofString source).events.drop (pulling.items.size + 1) ∧
      (next.finished = true ↔ next.queue = []) := by
  have due : (Run.ofString source).items[pulling.items.size]? =
      channel.queue.head?.map fun event => some event.answer := by
    rw [Run.items_eq_map_events, List.getElem?_map, midway.queue, List.head?_drop]
  have following : (Run.ofString source).events.drop (pulling.items.size + 1) =
      channel.queue.tail := by
    rw [midway.queue, List.tail_drop]
  rw [due, following]
  cases pulls with
  | past finished =>
      have empty : channel.queue = [] := midway.finished.mp finished
      rw [empty]
      exact ⟨rfl, rfl, iff_of_true finished rfl⟩
  | @event event rest unfinished queued =>
      have sent : (Run.ofString source).events =
          (Run.ofString source).events.take pulling.items.size ++ event :: rest := by
        rw [← queued, midway.queue, List.take_append_drop]
      rw [queued]
      exact ⟨rfl, rfl, Run.isLast_iff sent⟩
  | disconnected unfinished empty =>
      -- A run does not run dry before its stream has ended.
      have finished := midway.finished.mpr empty
      rw [unfinished] at finished
      cases finished

theorem Midway.consume {state : Channel × Pulling} (midway : Midway source plan state) :
    Midway source plan (puller.consume state) := by
  rcases state with ⟨channel, pulling⟩
  cases demanded : puller.demand pulling with
  | none =>
      rw [Consumer.consume_of_demand_none demanded]
      exact midway
  | some pull =>
      rcases Channel.exists_pulls midway.senders pull with ⟨item, next, pulls⟩
      obtain ⟨isDue, queue, finished⟩ := midway.item_eq pulls
      have planned : plan[pulling.items.size]? = some pull := by
        rw [← List.head?_drop, ← midway.plan]
        exact demanded
      rw [Consumer.consume_of_pulls demanded pulls]
      constructor
      case items =>
        have answered : (answers (Run.ofString source).items plan)[pulling.items.size]? =
            some item := by
          rw [answers, List.getElem?_mapIdx, planned, isDue]
          rfl
        simp only [puller, Array.toList_push, Array.size_push]
        rw [List.take_add_one, answered, ← midway.items]
        rfl
      case plan =>
        simp only [puller, Array.size_push]
        rw [midway.plan, List.tail_drop]
      case queue =>
        simp only [puller, Array.size_push]
        exact queue
      case senders => exact pulls.senders_eq.trans midway.senders
      case finished => exact finished
      case ended =>
        simp only [puller, Array.toList_push, List.any_append, List.any_cons, List.any_nil,
          Bool.or_false]
        rw [pulls.finished_eq, midway.ended]

theorem midway_iterate (pulls : Nat) :
    Midway source plan
      (puller.consume^[pulls] (Channel.ofRun (Run.ofString source), { plan })) := by
  induction pulls with
  | zero => exact midway_start
  | succ pulls inductionHypothesis =>
      rw [Function.iterate_succ_apply']
      exact inductionHypothesis.consume

theorem Midway.items_of_demand_none {state : Channel × Pulling}
    (midway : Midway source plan state) (left : puller.demand state.2 = none) :
    state.2.items.toList = answers (Run.ofString source).items plan := by
  have complete : plan.length ≤ state.2.items.size := by
    rw [← List.drop_eq_nil_iff, ← midway.plan]
    exact List.head?_eq_none_iff.mp left
  rw [midway.items]
  apply List.take_of_length_le
  rw [answers, List.length_mapIdx]
  exact complete

theorem Midway.isPrefix {state : Channel × Pulling} (midway : Midway source plan state) :
    state.2.items.toList <+: answers (Run.ofString source).items plan := by
  rw [midway.items]
  exact List.take_prefix _ _

theorem Midway.finished_iff {state : Channel × Pulling} (midway : Midway source plan state) :
    state.1.finished = true ↔ (Run.ofString source).EndsAmong state.2.items.toList := by
  rw [midway.ended]
  exact Run.any_endsStream_iff midway.isPrefix.subset

theorem puller_settles : puller.Settles := by
  intro pulling pull channel next item demanded pulls
  apply Or.inr
  -- A pull past the end takes no event, but it is one of the plan.
  have fewer : pulling.plan.tail.length < pulling.plan.length := by
    have nonempty : pulling.plan ≠ [] := by
      intro empty
      simp [puller, empty] at demanded
    rw [List.length_tail]
    exact Nat.sub_lt (List.length_pos_of_ne_nil nonempty) Nat.zero_lt_one
  have atMost : next.queue.length ≤ channel.queue.length := by
    cases pulls with
    | past => exact Nat.le_refl _
    | event _ queued =>
        rw [queued]
        exact Nat.le_succ _
    | disconnected => exact Nat.le_refl _
  exact Nat.add_lt_add_of_le_of_lt atMost fewer

/-- At any moment of a pipeline the receiver is midway in what the run fixes. -/
theorem pulled_of_follows {pipeline : Pipeline Pulling}
    (follows : pipeline.Follows puller (Channel.ofRun (Run.ofString source), { plan })) :
    pipeline.progress.items.toList <+: answers (Run.ofString source).items plan ∧
      (pipeline.channel.finished = true ↔
        (Run.ofString source).EndsAmong pipeline.progress.items.toList) ∧
      (puller.demand pipeline.progress = none →
        pipeline.progress.items.toList = answers (Run.ofString source).items plan) := by
  rcases follows.reached with ⟨pulls, channel, reached, finished, _⟩
  have midway : Midway source plan (channel, pipeline.progress) := by
    rw [← reached]
    exact midway_iterate pulls
  refine ⟨midway.isPrefix, ?_, midway.items_of_demand_none⟩
  rw [← finished]
  exact midway.finished_iff

/-! ### The worker's result -/

theorem Run.result_emit (emitted : Option Token) (run : Run) :
    ((emit emitted run).result.map fun _ => ()) = run.result.map fun _ => () := by
  rcases run with ⟨tokens, failure⟩
  cases failure <;> rfl

namespace Worker

/-- The result that a worker has or will have. -/
def verdict : Worker → Except LexicalError Unit
  | .scanning state cursor levels => (Run.drive state cursor levels).result.map fun _ => ()
  | .finishing _ _ => .ok ()
  | .failing error => .error error
  | .closing outcome => outcome
  | .joined outcome => outcome

/-- Nothing that happens to the channel changes the result. -/
theorem verdict_advance (worker : Worker) (channel : Channel) :
    (worker.advance channel).1.verdict = worker.verdict := by
  cases worker with
  | scanning state cursor levels =>
      rw [advance, verdict, Run.drive_eq, Run.result_emit]
      cases outcome : (state.step cursor).outcome with
      | error error => rfl
      | ok transition =>
          cases transition with
          | exhausted => rfl
          | next following => rfl
  | finishing cursor levels =>
      cases levels with
      | nil => rfl
      | cons level levels => cases level <;> rfl
  | _ => rfl

theorem verdict_of_outcome? {worker : Worker} {outcome : Except LexicalError Unit}
    (done : worker.outcome? = some outcome) : worker.verdict = outcome := by
  cases worker with
  | joined result =>
      cases done
      rfl
  | _ => cases done

end Worker

namespace Pipeline

variable {Progress : Type} (consumer : Consumer Progress)

theorem verdict_take (pipeline : Pipeline Progress) (turn : Turn) :
    (pipeline.take consumer turn).worker.verdict = pipeline.worker.verdict := by
  cases turn with
  | worker => exact pipeline.worker.verdict_advance pipeline.channel
  | consumer => rw [worker_take_consumer]

theorem verdict_play (pipeline : Pipeline Progress) (schedule : List Turn) :
    (pipeline.play consumer schedule).worker.verdict = pipeline.worker.verdict := by
  induction schedule generalizing pipeline with
  | nil => rfl
  | cons turn schedule inductionHypothesis =>
      exact (inductionHypothesis _).trans (verdict_take consumer pipeline turn)

theorem outcome_complete (pipeline : Pipeline Progress) (schedule : List Turn) :
    (pipeline.complete consumer schedule).worker.outcome? = some pipeline.worker.verdict := by
  have ends : ∃ outcome, (pipeline.complete consumer schedule).worker = .joined outcome :=
    worker_complete schedule
  have verdict : (pipeline.complete consumer schedule).worker.verdict =
      pipeline.worker.verdict := by
    rw [complete, settleConsumer, verdict_play, settleWorker, verdict_play, verdict_play]
  rcases ends with ⟨outcome, joined⟩
  rw [← verdict, joined]
  rfl

end Pipeline

/-! ### Pulling from a worker -/

/-- However a worker and its receiver take turns, and however often the receiver pulls before
it leaves, the items are the first of those that the run fixes. The receiver has seen the end if
it was given the `finish` token or the failure, and the worker's result is that of the run. What
is seen before everything is done agrees with this. -/
theorem excerpt_follows_run (schedule : List Turn) (plan : List Pull) (source : String) :
    let run := Run.ofString source
    let seen := excerpt schedule plan source
    let moment := (Pipeline.ofString source { plan }).play puller schedule
    seen.items = plan.mapIdx (fun index pull => run.items[index]?.getD pull.pastEnd) ∧
    (seen.finished = true ↔ run.EndsAmong seen.items) ∧
    seen.joined = some ((tokenize source).map fun _ => ()) ∧
    moment.progress.items.toList <+: seen.items ∧
    (moment.channel.finished = true ↔ run.EndsAmong moment.progress.items.toList) ∧
    ∀ outcome, moment.worker.outcome? = some outcome →
      outcome = (tokenize source).map fun _ => () := by
  intro run seen moment
  have follows := Pipeline.follows_ofString puller source { plan }
  obtain ⟨_, finished, whole⟩ := pulled_of_follows (follows.complete schedule)
  obtain ⟨isPrefix, finishedThen, _⟩ := pulled_of_follows (follows.play schedule)
  have items : seen.items = answers run.items plan :=
    whole (Pipeline.demand_complete follows puller_settles schedule)
  refine ⟨items, finished, ?_, ?_, finishedThen, ?_⟩
  · exact Pipeline.outcome_complete puller (Pipeline.ofString source { plan }) schedule
  · rw [items]
    exact isPrefix
  · intro outcome done
    rw [← Worker.verdict_of_outcome? done]
    exact Pipeline.verdict_play puller (Pipeline.ofString source { plan }) schedule

end Tokenizer
