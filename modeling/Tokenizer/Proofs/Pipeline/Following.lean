import Mathlib.Logic.Function.Iterate
import Tokenizer.Pipeline
import Tokenizer.Proofs.Channel.Pulls
import Tokenizer.Proofs.Scanner.Scans

/-!
A pipeline as its consumer sees it.

What a worker has still to send is determined already. So a consumer that has
had some turns stands where it would stand had it pulled from a channel that
held everything from the start, and no schedule can be seen in what it pulls.
-/

namespace Tokenizer

/-- What a run puts on a channel. -/
def Run.events (run : Run) : List Event :=
  run.tokens.map Event.token ++ run.failure.toList.map Event.failed

theorem Run.events_emit (emitted : Option Token) (run : Run) :
    (run.emit emitted).events = emitted.toList.map Event.token ++ run.events := by
  simp [Run.emit, Run.events]

theorem Run.events_drive (state : State) (cursor : Cursor) (levels : List Nat) :
    (Run.drive state cursor levels).events =
      (state.step cursor).emitted.toList.map Event.token ++
        match (state.step cursor).outcome with
        | .error error => [.failed error]
        | .ok .exhausted => (closing levels (state.step cursor).cursor).map Event.token
        | .ok (.next following) =>
            (Run.drive following (state.step cursor).cursor levels).events := by
  rw [Run.drive_eq, events_emit]
  cases (state.step cursor).outcome with
  | error error => rfl
  | ok transition =>
      cases transition with
      | exhausted => exact congrArg (_ ++ ·) (List.append_nil _)
      | next following => rfl

/-- A run sends its tokens and, if it fails, its failure; the last of all these is the only one
with which a stream ends. -/
theorem Run.events_ofString (source : String) :
    ∃ (body : List Token) (last : Event), (∀ token ∈ body, token.isFinish = false) ∧
      (ofString source).events = body.map Event.token ++ [last] ∧
      match (ofString source).failure with
      | none => ∃ finish, finish.isFinish = true ∧ last = .token finish ∧
          (ofString source).tokens = body ++ [finish]
      | some error => last = .failed error ∧ (ofString source).tokens = body := by
  rcases kinds_ofString source with ⟨body, proper, succeeded, failed⟩
  have notLast : ∀ token ∈ body, token.isFinish = false := by
    intro token membership
    simpa [Token.isFinish] using (proper token membership).2
  rw [events]
  cases failure : (ofString source).failure with
  | none =>
      rw [succeeded failure, List.map_append, List.append_assoc]
      exact ⟨body, _, notLast, rfl, _, rfl, rfl, rfl⟩
  | some error =>
      rw [failed (by simp [failure])]
      exact ⟨body, _, notLast, rfl, rfl, rfl⟩

namespace Channel

/-- The channel when all of these events have been sent. -/
def sendAll (events : List Event) (channel : Channel) : Channel :=
  if channel.listening then { channel with queue := channel.queue ++ events } else channel

/-- The channel when these events have been sent and no sender is left. -/
def settle (events : List Event) (channel : Channel) : Channel :=
  { channel with queue := channel.queue ++ events, senders := 0 }

/-- A channel with a whole run on it and no sender left. -/
def ofRun (run : Run) : Channel :=
  new.settle run.events

theorem sendAll_nil (channel : Channel) : channel.sendAll [] = channel := by
  simp [sendAll]

@[simp]
theorem senders_sendAll (events : List Event) (channel : Channel) :
    (channel.sendAll events).senders = channel.senders := by
  by_cases listening : channel.listening <;> simp [sendAll, listening]

@[simp]
theorem finished_sendAll (events : List Event) (channel : Channel) :
    (channel.sendAll events).finished = channel.finished := by
  by_cases listening : channel.listening <;> simp [sendAll, listening]

@[simp]
theorem listening_sendAll (events : List Event) (channel : Channel) :
    (channel.sendAll events).listening = channel.listening := by
  by_cases listening : channel.listening <;> simp [sendAll, listening]

theorem queue_sendAll {channel : Channel} (listening : channel.listening = true)
    (events : List Event) : (channel.sendAll events).queue = channel.queue ++ events := by
  rw [sendAll, if_pos listening]

theorem with_senders_eq {channel : Channel} {count : Nat} (same : channel.senders = count) :
    { channel with senders := count } = channel := by
  subst same
  rfl

/-- What will be sent later makes no difference to a pull that need not wait. -/
theorem Pulls.settle {pull : Pull} {channel next : Channel} {item : Item} {events : List Event}
    (pulls : Pulls pull channel item next) (complete : channel.senders = 0 → events = []) :
    Pulls pull (channel.settle events) item (next.settle events) := by
  cases pulls with
  | past finished => exact .past finished
  | event unfinished queued =>
      have queuedStill : (channel.settle events).queue = _ :: (_ ++ events) :=
        congrArg (fun queue => queue ++ events) queued
      exact .event unfinished queuedStill
  | disconnected unfinished queued noSender =>
      obtain rfl := complete noSender
      have empty : (channel.settle []).queue = [] := by simp [Channel.settle, queued]
      exact .disconnected unfinished empty rfl

end Channel

/-! ### The worker -/

namespace Worker

/-- The events that a worker has still to send. -/
def outstanding : Worker → List Event
  | .scanning state cursor levels => (Run.drive state cursor levels).events
  | .finishing cursor levels => (Run.closing levels cursor).map Event.token
  | .failing error => [.failed error]
  | .closing _ => []
  | .joined _ => []

/-- How many senders a worker has. -/
def held : Worker → Nat
  | .joined _ => 0
  | _ => 1

theorem outstanding_of_held_zero {worker : Worker} (none : worker.held = 0) :
    worker.outstanding = [] := by
  cases worker with
  | joined outcome => rfl
  | _ => cases none

theorem publish_eq_sendAll (emitted : Option Token) (channel : Channel) :
    publish emitted channel = channel.sendAll (emitted.toList.map Event.token) := by
  cases emitted with
  | none => exact channel.sendAll_nil.symm
  | some token => rfl

/-- A worker sends a part of what is outstanding, in order, and keeps its sender
until it is done. -/
theorem advance_spec {worker : Worker} {channel : Channel}
    (held : channel.senders = worker.held) :
    ∃ events, worker.outstanding = events ++ (worker.advance channel).1.outstanding ∧
      (worker.advance channel).2 =
        { channel.sendAll events with senders := (worker.advance channel).1.held } := by
  cases worker with
  | scanning state cursor levels =>
      refine ⟨(state.step cursor).emitted.toList.map Event.token, ?_, ?_⟩
      · rw [outstanding, Run.events_drive, advance]
        cases (state.step cursor).outcome with
        | error error => rfl
        | ok transition => cases transition <;> rfl
      · have heldStill : (Worker.advance (.scanning state cursor levels) channel).1.held = 1 := by
          rw [advance]
          cases (state.step cursor).outcome with
          | error error => rfl
          | ok transition => cases transition <;> rfl
        rw [heldStill]
        refine (publish_eq_sendAll _ channel).trans (Eq.symm ?_)
        exact Channel.with_senders_eq ((Channel.senders_sendAll _ channel).trans held)
  | finishing cursor levels =>
      have heldStill (events : List Event) :=
        (Channel.with_senders_eq ((Channel.senders_sendAll events channel).trans held)).symm
      cases levels with
      | nil => exact ⟨[.token (cursor.token .finish)], rfl, heldStill _⟩
      | cons level levels =>
          cases level with
          | zero => exact ⟨[.token (cursor.token .finish)], rfl, heldStill _⟩
          | succ => exact ⟨[.token (cursor.token .dedent)], rfl, heldStill _⟩
  | failing error =>
      refine ⟨[.failed error], rfl, ?_⟩
      exact (Channel.with_senders_eq ((Channel.senders_sendAll _ channel).trans held)).symm
  | closing outcome =>
      refine ⟨[], rfl, ?_⟩
      simp [advance, Channel.sendAll_nil, Channel.dropSender, held, Worker.held]
  | joined outcome =>
      refine ⟨[], rfl, ?_⟩
      rw [Channel.sendAll_nil]
      exact (Channel.with_senders_eq held).symm

theorem work_finishing_le (cursor : Cursor) (levels : List Nat) :
    (finishing cursor levels).work ≤ 3 := by
  cases levels with
  | nil => exact Nat.le_succ 2
  | cons level levels => cases level <;> simp [work, Run.closing]

theorem work_advance_le (worker : Worker) (channel : Channel) :
    (worker.advance channel).1.work ≤ worker.work - 1 := by
  cases worker with
  | scanning state cursor levels =>
      rw [advance, work]
      cases outcome : (state.step cursor).outcome with
      | error error => simp [work]
      | ok transition =>
          cases transition with
          | exhausted => exact (work_finishing_le _ levels).trans (Nat.le_add_left 3 _)
          | next following =>
              have shorter := State.measure_step_lt outcome
              simp only [work]
              omega
  | finishing cursor levels =>
      cases levels with
      | nil => exact Nat.le_refl 1
      | cons level levels => cases level <;> simp [advance, work, Run.closing]
  | _ => simp [advance, work]

theorem eq_joined_of_work_zero {worker : Worker} (done : worker.work = 0) :
    ∃ outcome, worker = .joined outcome := by
  cases worker with
  | joined outcome => exact ⟨outcome, rfl⟩
  | _ => cases done

end Worker

/-! ### The consumer alone -/

variable {Progress : Type}

/-- A turn of a consumer that has a channel to itself. -/
def Consumer.consume (consumer : Consumer Progress) : Channel × Progress → Channel × Progress
  | (channel, progress) =>
      match consumer.demand progress with
      | none => (channel, progress)
      | some pull =>
          match channel.pull? pull with
          | none => (channel, progress)
          | some (item, next) => (next, consumer.accept progress item)

theorem Consumer.consume_of_pulls {consumer : Consumer Progress} {progress : Progress}
    {pull : Pull} {channel next : Channel} {item : Item}
    (demanded : consumer.demand progress = some pull)
    (pulls : Channel.Pulls pull channel item next) :
    consumer.consume (channel, progress) = (next, consumer.accept progress item) := by
  simp [consume, demanded, Channel.pull?_eq_some_iff.mpr pulls]

namespace Pipeline

/-- The channel with everything on it that the worker has still to send. -/
def settled (pipeline : Pipeline Progress) : Channel :=
  pipeline.channel.settle pipeline.worker.outstanding

/-- The consumer stands where it would stand after some pulls from the channel
it started with. Once it has left, the channel does not matter. -/
structure Follows (consumer : Consumer Progress) (start : Channel × Progress)
    (pipeline : Pipeline Progress) : Prop where
  held : pipeline.channel.senders = pipeline.worker.held
  reached : ∃ pulls channel, consumer.consume^[pulls] start = (channel, pipeline.progress) ∧
    channel.finished = pipeline.channel.finished ∧
    (pipeline.channel.listening = true → channel = pipeline.settled)
  stopped : pipeline.channel.listening = false → consumer.demand pipeline.progress = none

variable {consumer : Consumer Progress} {start : Channel × Progress}
  {pipeline : Pipeline Progress}

theorem Follows.take_worker (follows : Follows consumer start pipeline) :
    Follows consumer start (pipeline.take consumer .worker) := by
  rcases pipeline with ⟨worker, channel, progress⟩
  rcases follows with ⟨held, ⟨pulls, reachedChannel, reached, finished, settled⟩, stopped⟩
  rcases Worker.advance_spec held with ⟨events, outstanding, advanced⟩
  refine ⟨?_, ⟨pulls, reachedChannel, reached, ?_, ?_⟩, ?_⟩
  · simp only [take, advanced]
  · simp only [take, advanced, Channel.finished_sendAll]
    exact finished
  · intro listening
    simp only [take, advanced, Channel.listening_sendAll] at listening
    simp only [settled listening, Pipeline.settled, Channel.settle, take, outstanding, advanced,
      Channel.queue_sendAll listening, Channel.finished_sendAll, Channel.listening_sendAll,
      List.append_assoc]
  · intro deaf
    simp only [take, advanced, Channel.listening_sendAll] at deaf
    exact stopped deaf

theorem Follows.take_consumer (follows : Follows consumer start pipeline) :
    Follows consumer start (pipeline.take consumer .consumer) := by
  rcases pipeline with ⟨worker, channel, progress⟩
  rcases follows with ⟨held, ⟨pulls, reachedChannel, reached, finished, settled⟩, stopped⟩
  cases demanded : consumer.demand progress with
  | none =>
      simp only [take, demanded]
      refine ⟨held, ⟨pulls, reachedChannel, reached, finished, ?_⟩, fun _ => demanded⟩
      intro listening
      cases listening
  | some pull =>
      have listening : channel.listening = true := by
        by_contra deaf
        have left := stopped (Bool.eq_false_iff.mpr deaf)
        rw [demanded] at left
        cases left
      cases pulled : channel.pull? pull with
      | none =>
          simp only [take, demanded, pulled]
          exact ⟨held, ⟨pulls, reachedChannel, reached, finished, settled⟩, stopped⟩
      | some answered =>
          rcases answered with ⟨item, next⟩
          simp only [take, demanded, pulled]
          have pulledNow := Channel.pull?_eq_some_iff.mp pulled
          have complete : channel.senders = 0 → worker.outstanding = [] := by
            intro noSender
            exact Worker.outstanding_of_held_zero (held.symm.trans noSender)
          have pulledSettled := pulledNow.settle complete
          refine ⟨?_, ⟨pulls + 1, next.settle worker.outstanding, ?_, rfl, fun _ => rfl⟩, ?_⟩
          · exact pulledNow.senders_eq.trans held
          · rw [Function.iterate_succ_apply', reached, settled listening]
            exact Consumer.consume_of_pulls demanded pulledSettled
          · intro deaf
            rw [pulledNow.listening_eq, listening] at deaf
            cases deaf

theorem Follows.play (follows : Follows consumer start pipeline) (schedule : List Turn) :
    Follows consumer start (pipeline.play consumer schedule) := by
  induction schedule generalizing pipeline with
  | nil => exact follows
  | cons turn schedule inductionHypothesis =>
      cases turn with
      | worker => exact inductionHypothesis follows.take_worker
      | consumer => exact inductionHypothesis follows.take_consumer

theorem follows_ofString (consumer : Consumer Progress) (source : String) (progress : Progress) :
    Follows consumer (Channel.ofRun (Run.ofString source), progress)
      (ofString source progress) where
  held := rfl
  reached := ⟨0, _, rfl, rfl, fun _ => rfl⟩
  stopped := by
    intro deaf
    cases deaf

end Pipeline

end Tokenizer
