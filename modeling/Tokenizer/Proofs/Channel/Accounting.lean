import Tokenizer.Channel.Session
import Tokenizer.Proofs.Channel.Collecting

/-!
The account of a channel.

As long as the receiver is there, what has been sent is what has been delivered,
followed by the queue. Each operation keeps the balance, so any sequence of them
does, by any number of senders.
-/

namespace Tokenizer.Channel

/-- The channel after some operations. -/
def after (channel : Channel) (operations : List Operation) : Channel :=
  operations.foldl (fun channel operation => (channel.perform operation).2) channel

/-- The operations with their responses. -/
def exchanges (channel : Channel) (operations : List Operation) : List (Operation × Response) :=
  operations.zip ((channel.performAll operations).map Prod.fst)

def sentBy : Operation × Response → List Event
  | (.send event, .sent) => [event]
  | _ => []

def deliveredBy : Operation × Response → List Event
  | (_, .item (some (.ok token))) => [.token token]
  | (_, .item (some (.error (.lexical error)))) => [.failed error]
  | _ => []

/-- The events that some operations put on the channel, in order. -/
def sent (channel : Channel) (operations : List Operation) : List Event :=
  (channel.exchanges operations).flatMap sentBy

/-- The events that some operations took from the channel, in order. -/
def delivered (channel : Channel) (operations : List Operation) : List Event :=
  (channel.exchanges operations).flatMap deliveredBy

variable {channel next : Channel} {operation : Operation} {operations : List Operation}

end Tokenizer.Channel
