import Tokenizer.Channel

/-!
What a pull can do to a channel, said once.

A pull answers past the end of the stream, hands over the oldest event, or
finds that nothing will ever come. Otherwise it waits.
-/

namespace Tokenizer

/-- How the receiver is told of an event. -/
def Event.answer : Event → Except ChannelError Token
  | .token emitted => .ok emitted
  | .failed error => .error (.lexical error)

/-- Whether the stream ends with this event. -/
def Event.isLast : Event → Bool
  | .token emitted => emitted.isFinish
  | .failed _ => true

/-- What a pull answers once the stream has ended. -/
def Pull.pastEnd : Pull → Item
  | .next => some (.error .finished)
  | .timed => some (.error .finished)
  | .iterate => none

namespace Channel

/-- The answers of a pull, and the channel after each of them. -/
inductive Pulls (pull : Pull) : Channel → Item → Channel → Prop where
  | past {channel} : channel.finished = true → Pulls pull channel pull.pastEnd channel
  | event {channel event rest} : channel.finished = false → channel.queue = event :: rest →
      Pulls pull channel (some event.answer)
        { channel with queue := rest, finished := event.isLast }
  | disconnected {channel} : channel.finished = false → channel.queue = [] →
      channel.senders = 0 →
      Pulls pull channel (some (.error .disconnected)) { channel with finished := true }

variable {pull : Pull} {channel next : Channel} {item : Item}

theorem receive?_of_cons {event : Event} {rest : List Event}
    (queued : channel.queue = event :: rest) :
    channel.receive? =
      some (event.answer, { channel with queue := rest, finished := event.isLast }) := by
  rcases channel with ⟨queue, senders, listening, finished⟩
  obtain rfl : queue = event :: rest := queued
  cases event <;> rfl

theorem receive?_of_nil (queued : channel.queue = []) :
    channel.receive? =
      if channel.senders = 0 then some (.error .disconnected, { channel with finished := true })
      else none := by
  rcases channel with ⟨queue, senders, listening, finished⟩
  obtain rfl : queue = [] := queued
  rfl

theorem pull?_eq_some_iff :
    channel.pull? pull = some (item, next) ↔ Pulls pull channel item next := by
  constructor
  · intro pulled
    unfold pull? at pulled
    split at pulled
    · next finished =>
        cases pull <;> cases pulled <;> exact .past finished
    · next unfinished =>
        rw [Bool.not_eq_true] at unfinished
        cases queued : channel.queue with
        | cons event rest =>
            rw [receive?_of_cons queued] at pulled
            cases pulled
            exact .event unfinished queued
        | nil =>
            rw [receive?_of_nil queued] at pulled
            by_cases noSender : channel.senders = 0
            · rw [if_pos noSender] at pulled
              cases pulled
              exact .disconnected unfinished queued noSender
            · rw [if_neg noSender] at pulled
              cases pulled
  · intro pulls
    cases pulls with
    | past finished => cases pull <;> simp [pull?, finished, Pull.pastEnd]
    | event unfinished queued => simp [pull?, unfinished, receive?_of_cons queued]
    | disconnected unfinished queued noSender =>
        simp [pull?, unfinished, receive?_of_nil queued, noSender]

/-- A pull waits exactly as long as an event may still come. -/
theorem pull?_eq_none_iff : channel.pull? pull = none ↔
    channel.finished = false ∧ channel.queue = [] ∧ channel.senders ≠ 0 := by
  cases finished : channel.finished with
  | true => cases pull <;> simp [pull?, finished]
  | false =>
      cases queued : channel.queue with
      | cons event rest => simp [pull?, finished, receive?_of_cons queued]
      | nil => simp [pull?, finished, receive?_of_nil queued]

/-- Without a sender no pull waits. -/
theorem exists_pulls (noSender : channel.senders = 0) (pull : Pull) :
    ∃ item next, Pulls pull channel item next := by
  have answered : channel.pull? pull ≠ none := by
    intro waits
    exact (pull?_eq_none_iff.mp waits).2.2 noSender
  rcases Option.ne_none_iff_exists'.mp answered with ⟨⟨item, next⟩, pulled⟩
  exact ⟨item, next, pull?_eq_some_iff.mp pulled⟩

theorem Pulls.senders_eq (pulls : Pulls pull channel item next) :
    next.senders = channel.senders := by
  cases pulls <;> rfl

theorem Pulls.listening_eq (pulls : Pulls pull channel item next) :
    next.listening = channel.listening := by
  cases pulls <;> rfl

end Channel

end Tokenizer
