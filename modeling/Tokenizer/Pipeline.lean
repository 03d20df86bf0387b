import Tokenizer.Worker

/-!
A worker and a consumer at the two ends of one channel.

The two act in turns. A schedule is any list of turns, and whatever the
schedule leaves undone is done after it, one turn each. So schedules range over
all interleavings.
-/

namespace Tokenizer

/-- A receiver's plan: which pull to make next, if any, and what to do with the
answer. Without a next pull it drops its end of the channel. -/
structure Consumer (Progress : Type) where
  demand : Progress → Option Pull
  accept : Progress → Item → Progress
  /-- A bound on the pulls it makes beyond the events that are sent. -/
  surplus : Progress → Nat

/-- Whose turn it is. -/
inductive Turn where
  | worker
  | consumer
  deriving DecidableEq, Repr

/-- A worker, a channel and a consumer's progress. -/
structure Pipeline (Progress : Type) where
  worker : Worker
  channel : Channel
  progress : Progress

namespace Pipeline

variable {Progress : Type}

/-- The pipeline before anything happened. -/
def ofString (source : String) (progress : Progress) : Pipeline Progress :=
  ⟨Worker.ofString source, Channel.new, progress⟩

/-- Give the worker or the consumer a turn. A consumer that has to wait lets its
turn pass. -/
def take (consumer : Consumer Progress) : Pipeline Progress → Turn → Pipeline Progress
  | ⟨worker, channel, progress⟩, .worker =>
      let advanced := worker.advance channel
      ⟨advanced.1, advanced.2, progress⟩
  | ⟨worker, channel, progress⟩, .consumer =>
      match consumer.demand progress with
      | none => ⟨worker, channel.dropReceiver, progress⟩
      | some pull =>
          match channel.pull? pull with
          | none => ⟨worker, channel, progress⟩
          | some (item, channel) => ⟨worker, channel, consumer.accept progress item⟩

/-- Take turns as scheduled. -/
def play (consumer : Consumer Progress) (pipeline : Pipeline Progress)
    (schedule : List Turn) : Pipeline Progress :=
  schedule.foldl (take consumer) pipeline

/-- Let the worker go on until it is done. The consumer has a turn after each
of the worker's, so that little is ever queued. -/
def settleWorker (consumer : Consumer Progress) (pipeline : Pipeline Progress) :
    Pipeline Progress :=
  let rounds := List.replicate pipeline.worker.work [Turn.worker, Turn.consumer]
  pipeline.play consumer rounds.flatten

/-- Let the consumer go on, with a turn for every event in the queue, for the
pulls beyond them and for dropping its end. -/
def settleConsumer (consumer : Consumer Progress) (pipeline : Pipeline Progress) :
    Pipeline Progress :=
  let pulls := pipeline.channel.queue.length + consumer.surplus pipeline.progress
  pipeline.play consumer (List.replicate (pulls + 1) .consumer)

/-- Take turns as scheduled and do the rest afterwards. -/
def complete (consumer : Consumer Progress) (schedule : List Turn)
    (pipeline : Pipeline Progress) : Pipeline Progress :=
  ((pipeline.play consumer schedule).settleWorker consumer).settleConsumer consumer

end Pipeline

/-- What has been collected, and how the collection ended if it did. -/
structure Collection where
  tokens : Array Token := #[]
  result : Option (Except ChannelError (List Token)) := none

/-- Collect the whole stream; the first error is the result. -/
def collector : Consumer Collection where
  demand collection := if collection.result.isSome then none else some .iterate
  accept collection item :=
    match item with
    | none => { collection with result := some (.ok collection.tokens.toList) }
    | some (.ok token) => { collection with tokens := collection.tokens.push token }
    | some (.error error) => { collection with result := some (.error error) }
  surplus _ := 1

/-- The tokens of a source, scanned by a worker and collected as they arrive. -/
def tokenizeConcurrently (schedule : List Turn) (source : String) :
    Except ChannelError (List Token) :=
  let final := (Pipeline.ofString source {}).complete collector schedule
  final.progress.result.getD (.error .disconnected)

/-- The items pulled so far, and the pulls still to be made. -/
structure Pulling where
  items : Array Item := #[]
  plan : List Pull

/-- Make the planned pulls, whatever they answer. -/
def puller : Consumer Pulling where
  demand pulling := pulling.plan.head?
  accept pulling item := ⟨pulling.items.push item, pulling.plan.tail⟩
  surplus pulling := pulling.plan.length

/-- What is seen of a worker whose receiver stops after some pulls. -/
structure Excerpt where
  items : List Item
  /-- Whether the receiver saw the stream end. -/
  finished : Bool
  /-- The worker's own result. -/
  joined : Option (Except LexicalError Unit)

/-- Make the planned pulls from a worker, drop the receiver and wait for the
worker. -/
def excerpt (schedule : List Turn) (plan : List Pull) (source : String) : Excerpt :=
  let final := (Pipeline.ofString source { plan }).complete puller schedule
  ⟨final.progress.items.toList, final.channel.finished, final.worker.outcome?⟩

/-- Whether an item says that the stream had ended before it was asked for. -/
def isPastEnd : Item → Bool
  | none => true
  | some (.error .finished) => true
  | _ => false

/-- The items up to the first that is past the end. -/
def upToEnd : List Item → List Item
  | [] => []
  | item :: rest => if isPastEnd item then [item] else item :: upToEnd rest

/-- Pull in one way, at most so many times if there is a limit, until an item
is past the end. A source has no more tokens than characters, and then comes
the end of the stream, one way or another. -/
def excerptUpToEnd (schedule : List Turn) (pull : Pull) (limit : Option Nat) (source : String) :
    Excerpt :=
  let enough := source.length + 3
  let seen := excerpt schedule (List.replicate ((limit.map (min enough)).getD enough) pull) source
  { seen with items := upToEnd seen.items }

end Tokenizer
