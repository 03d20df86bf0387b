import Tokenizer.ChannelError
import Tokenizer.Token

/-!
A token channel: an unbounded queue between any number of senders and one
receiver.

A stream ends in one of three ways that the receiver can see: a `finish` token,
the report of a failure, or the departure of the last sender before either.
From then on the receiver answers that the stream has finished and takes
nothing more from the queue.
-/

namespace Tokenizer

/-- One message on the channel. -/
inductive Event where
  | token (token : Token)
  /-- Scanning failed; nothing follows. -/
  | failed (error : LexicalError)
  deriving DecidableEq, Repr

/-- Both ends of a channel and what is under way between them. -/
structure Channel where
  /-- Sent and not yet received, oldest first. -/
  queue : List Event
  /-- How many senders are left. -/
  senders : Nat
  /-- Whether the receiver is still there. -/
  listening : Bool
  /-- Whether the receiver has seen the stream end. -/
  finished : Bool
  deriving DecidableEq, Repr

/-- The ways to ask for a token. -/
inductive Pull where
  /-- Wait as long as it takes; asking a finished stream is an error. -/
  | next
  /-- Like `next`, but give up after a while. -/
  | timed
  /-- Wait as long as it takes; a finished stream has no further item. -/
  | iterate
  deriving DecidableEq, Repr

/-- What a pull answers; nothing, once iteration is over. -/
abbrev Item := Option (Except ChannelError Token)

namespace Channel

/-- A new channel, with one sender. -/
def new : Channel :=
  ⟨[], 1, true, false⟩

/-- Put an event in the queue. Without a receiver it is discarded. -/
def send (event : Event) (channel : Channel) : Channel :=
  if channel.listening then { channel with queue := channel.queue ++ [event] } else channel

def cloneSender (channel : Channel) : Channel :=
  { channel with senders := channel.senders + 1 }

def dropSender (channel : Channel) : Channel :=
  { channel with senders := channel.senders - 1 }

/-- Without a receiver, what was under way is lost. -/
def dropReceiver (channel : Channel) : Channel :=
  { channel with queue := [], listening := false }

/-- Take the oldest event. There is no answer while the receiver has to wait:
nothing is queued and a sender is left. -/
def receive? (channel : Channel) : Option (Except ChannelError Token × Channel) :=
  match channel.queue with
  | .token token :: rest =>
      some (.ok token, { channel with queue := rest, finished := token.isFinish })
  | .failed error :: rest =>
      some (.error (.lexical error), { channel with queue := rest, finished := true })
  | [] =>
      if channel.senders = 0 then some (.error .disconnected, { channel with finished := true })
      else none

/-- Answer a pull, unless it has to wait. A pull of a finished stream does not
touch the queue. -/
def pull? (pull : Pull) (channel : Channel) : Option (Item × Channel) :=
  if channel.finished then
    match pull with
    | .next | .timed => some (some (.error .finished), channel)
    | .iterate => some (none, channel)
  else channel.receive?.map fun received => (some received.1, received.2)

/-- The answer to a timed pull whose time is over before anything arrived. -/
def timeOut (channel : Channel) : Item × Channel :=
  (some (.error .timeout), channel)

theorem queue_of_receive? {channel next : Channel} {token : Token}
    (received : channel.receive? = some (.ok token, next)) :
    channel.queue = .token token :: next.queue := by
  unfold receive? at received
  split at received
  · next queued =>
      cases received
      simpa using queued
  · cases received
  · split at received <;> cases received

theorem queue_of_pull? {pull : Pull} {channel next : Channel} {token : Token}
    (pulled : channel.pull? pull = some (some (.ok token), next)) :
    channel.queue = .token token :: next.queue := by
  unfold pull? at pulled
  split at pulled
  · cases pull <;> cases pulled
  · cases received : channel.receive? with
    | none => simp [received] at pulled
    | some answered =>
        obtain ⟨result, following⟩ := answered
        simp only [received, Option.map_some, Option.some.injEq, Prod.mk.injEq] at pulled
        obtain ⟨rfl, rfl⟩ := pulled
        exact queue_of_receive? received

/-- Iterate to the end of the stream. The first error ends the collection and
is its result. There is no answer if it would have to wait. -/
def collect? (channel : Channel) : Option (Except ChannelError (List Token)) :=
  match _pulled : channel.pull? .iterate with
  | none => none
  | some (none, _) => some (.ok [])
  | some (some (.error error), _) => some (.error error)
  | some (some (.ok token), next) =>
      next.collect?.map fun collected => collected.map fun tokens => token :: tokens
termination_by channel.queue.length
decreasing_by simp [queue_of_pull? _pulled]

end Channel

end Tokenizer
