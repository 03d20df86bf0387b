import Tokenizer.Proofs.Channel.Pulls

/-!
What collecting makes of a stream whose senders are gone.
-/

namespace Tokenizer

/-- What a receiver collects that has all these events before it and no sender
behind them. -/
def collected : List Event → Except ChannelError (List Token)
  | [] => .error .disconnected
  | .token token :: rest =>
      if token.isFinish then .ok [token] else (collected rest).map fun tokens => token :: tokens
  | .failed error :: _ => .error (.lexical error)

theorem collected_append {body : List Token} (proper : ∀ token ∈ body, token.isFinish = false)
    (events : List Event) :
    collected (body.map Event.token ++ events) =
      (collected events).map fun tokens => body ++ tokens := by
  induction body with
  | nil => cases collectedEvents : collected events <;> simp [collectedEvents, Except.map]
  | cons token body inductionHypothesis =>
      rw [List.forall_mem_cons] at proper
      rw [List.map_cons, List.cons_append, collected, if_neg (by simp [proper.1]),
        inductionHypothesis proper.2]
      cases collected events <;> rfl

namespace Channel

theorem collect?_of_pulls {channel next : Channel} {item : Item} :
    Pulls .iterate channel item next → channel.collect? =
      match item with
      | none => some (.ok [])
      | some (.error error) => some (.error error)
      | some (.ok token) =>
          next.collect?.map fun result => result.map fun tokens => token :: tokens := by
  intro pulls
  have pulled := pull?_eq_some_iff.mpr pulls
  rw [collect?]
  split
  · next waits =>
      rw [pulled] at waits
      cases waits
  · next exhausted =>
      rw [pulled] at exhausted
      cases exhausted
      rfl
  · next failed =>
      rw [pulled] at failed
      cases failed
      rfl
  · next answered =>
      rw [pulled] at answered
      cases answered
      rfl

theorem collect?_of_finished {channel : Channel} (finished : channel.finished = true) :
    channel.collect? = some (.ok []) := by
  rw [collect?_of_pulls (.past finished)]
  rfl

theorem collect?_eq_collected {channel : Channel} (unfinished : channel.finished = false)
    (noSender : channel.senders = 0) : channel.collect? = some (collected channel.queue) := by
  induction queued : channel.queue generalizing channel with
  | nil =>
      rw [collect?_of_pulls (.disconnected unfinished queued noSender)]
      rfl
  | cons event rest inductionHypothesis =>
      rw [collect?_of_pulls (.event unfinished queued)]
      cases event with
      | failed error => rfl
      | token token =>
          simp only [Event.answer, Event.isLast, collected]
          cases last : token.isFinish with
          | true =>
              rw [collect?_of_finished (by rfl)]
              rfl
          | false =>
              have others : ({ channel with queue := rest, finished := false } : Channel).collect? =
                  some (collected rest) := inductionHypothesis rfl noSender rfl
              rw [others]
              rfl

end Channel

end Tokenizer
