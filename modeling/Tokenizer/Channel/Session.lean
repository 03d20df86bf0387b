import Tokenizer.Channel

/-!
Channel operations as data, so that any sequence of them, by any number of
senders, can be run and spoken about.
-/

namespace Tokenizer.Channel

/-- One use of a channel. -/
inductive Operation where
  | send (event : Event)
  | cloneSender
  | dropSender
  | dropReceiver
  | pull (pull : Pull)
  /-- Drop every sender, then collect the rest of the stream. -/
  | collectAll

/-- What an operation answers. -/
inductive Response where
  | sent
  | noSender
  | noReceiver
  /-- The number of senders left. -/
  | senders (count : Nat)
  | dropped
  /-- The pull would wait. -/
  | waits
  | item (item : Item)
  | collected (result : Except ChannelError (List Token))

/-- Perform one operation. A timed pull that would wait times out. -/
def perform (channel : Channel) : Operation → Response × Channel
  | .send event =>
      if channel.senders = 0 then (.noSender, channel) else (.sent, channel.send event)
  | .cloneSender =>
      if channel.senders = 0 then (.noSender, channel)
      else (.senders (channel.senders + 1), channel.cloneSender)
  | .dropSender => (.senders (channel.senders - 1), channel.dropSender)
  | .dropReceiver => (.dropped, channel.dropReceiver)
  | .pull pull =>
      if !channel.listening then (.noReceiver, channel)
      else
        match channel.pull? pull with
        | some (item, next) => (.item item, next)
        | none =>
            match pull with
            | .timed => (.item channel.timeOut.1, channel.timeOut.2)
            | .next | .iterate => (.waits, channel)
  | .collectAll =>
      if !channel.listening then (.noReceiver, channel)
      else
        let closed := { channel with senders := 0 }
        match closed.collect? with
        | some result => (.collected result, closed.dropReceiver)
        | none => (.waits, closed)

/-- Perform operations in turn. With each response comes the channel after it. -/
def performAll (channel : Channel) : List Operation → List (Response × Channel)
  | [] => []
  | operation :: rest =>
      let responded := channel.perform operation
      responded :: responded.2.performAll rest

end Tokenizer.Channel
