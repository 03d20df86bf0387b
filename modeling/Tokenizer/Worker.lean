import Tokenizer.Channel
import Tokenizer.Scanner.Run

/-!
A worker scans a source and sends what it finds. It does one thing at a time,
so that a receiver may act between any two of its sends.
-/

namespace Tokenizer

/-- The name under which a worker runs. -/
def workerName : String := "rat21f-lexer"

/-- What a worker is about to do. -/
inductive Worker where
  /-- Run a state of the scanner. -/
  | scanning (state : State) (cursor : Cursor) (levels : List Nat)
  /-- Close a level of indentation, if one is open, and then send the `finish` token. -/
  | finishing (cursor : Cursor) (levels : List Nat)
  /-- Report the failure of the scan. -/
  | failing (error : LexicalError)
  /-- Drop the sender. -/
  | closing (outcome : Except LexicalError Unit)
  /-- Nothing more; its result can be collected. -/
  | joined (outcome : Except LexicalError Unit)

namespace Worker

/-- A worker about to scan a source. -/
def ofString (source : String) : Worker :=
  .scanning .start (Cursor.ofString source) [0]

/-- What a state emitted, sent. -/
def publish (emitted : Option Token) (channel : Channel) : Channel :=
  match emitted with
  | none => channel
  | some token => channel.send (.token token)

/-- Do the next thing. -/
def advance : Worker → Channel → Worker × Channel
  | .scanning state cursor levels, channel =>
      let step := state.step cursor
      let worker := match step.outcome with
        | .error error => .failing error
        | .ok .exhausted => .finishing step.cursor levels
        | .ok (.next following) => .scanning following step.cursor levels
      (worker, publish step.emitted channel)
  | .finishing cursor ((_ + 1) :: _), channel =>
      (.finishing cursor.resetStart [], channel.send (.token (cursor.token .dedent)))
  | .finishing cursor _, channel =>
      (.closing (.ok ()), channel.send (.token (cursor.token .finish)))
  | .failing error, channel => (.closing (.error error), channel.send (.failed error))
  | .closing outcome, channel => (.joined outcome, channel.dropSender)
  | .joined outcome, channel => (.joined outcome, channel)

/-- A bound on the things still to be done. -/
def work : Worker → Nat
  | .scanning state cursor _ => state.measure cursor + 4
  | .finishing cursor levels => (Run.closing levels cursor).length + 1
  | .failing _ => 2
  | .closing _ => 1
  | .joined _ => 0

/-- The result of a worker that is done. -/
def outcome? : Worker → Option (Except LexicalError Unit)
  | .joined outcome => some outcome
  | _ => none

end Worker

end Tokenizer
