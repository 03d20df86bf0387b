import Tokenizer.LexicalError

/-!
Why a receiver got no token.
-/

namespace Tokenizer

inductive ChannelError where
  /-- The sender reported that scanning failed. -/
  | lexical (error : LexicalError)
  /-- Every sender went away and the stream had not ended. -/
  | disconnected
  /-- Nothing arrived in time; the stream goes on. -/
  | timeout
  /-- The stream had already ended. -/
  | finished
  /-- The worker could not be started. -/
  | spawn (reason : String)
  deriving DecidableEq, Repr

def ChannelError.message : ChannelError → String
  | .lexical error => error.message
  | .disconnected => "token channel closed before END"
  | .timeout => "timed out waiting for the next token"
  | .finished => "token stream already finished"
  | .spawn reason => "failed to spawn lexer worker: " ++ reason

end Tokenizer
