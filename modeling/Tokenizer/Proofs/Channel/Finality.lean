import Tokenizer.Proofs.Channel.Accounting

/-!
The end of a stream, as its receiver sees it.

A receiver has finished from the answer on that ends the stream, and no operation makes it
unfinished again. Until then the three pulls answer alike, but for the time limit of one of
them; from then on they answer that the stream is over, whatever else is sent.
-/

namespace Tokenizer

/-- Whether a stream ends with this answer. -/
def endsStream : Item → Bool
  | some (.ok token) => token.isFinish
  | some (.error (.lexical _)) => true
  | some (.error .disconnected) => true
  | _ => false

namespace Channel

def Response.endsStream : Response → Bool
  | .item answer => Tokenizer.endsStream answer
  | _ => false

variable {channel next : Channel} {pull : Pull} {item : Item} {operation : Operation}
  {operations : List Operation}

/-! ### When a receiver has finished -/

theorem Pulls.finished_eq (pulls : Pulls pull channel item next) :
    next.finished = (channel.finished || endsStream item) := by
  cases pulls with
  | past finished => rw [finished, Bool.true_or]
  | @event event _ unfinished =>
      rw [unfinished, Bool.false_or]
      cases event <;> rfl
  | disconnected unfinished => rw [unfinished, Bool.false_or]; rfl

end Channel

end Tokenizer
