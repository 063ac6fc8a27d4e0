import Chip8.Console.Frame

/-!
# Commands to a console

What is done to a console from outside, as data: key moves are queued at any time, and the console
is played by the step or by the frame.
-/

namespace Chip8.Console

/-- Something to do to a console. -/
inductive Command where
  /-- Queue a key move. -/
  | enqueue (move : KeyMove)
  /-- Play one step. -/
  | step
  /-- Play one frame. -/
  | frame
deriving DecidableEq, Repr

/-- What a console answers to a command. -/
inductive Reply where
  /-- A key move was queued. -/
  | queued
  /-- What came of a step. -/
  | outcome (outcome : Outcome)
  /-- What came of a frame. -/
  | summary (summary : FrameSummary)
deriving DecidableEq, Repr

/-- The answer to a command, the console afterwards, and what was logged. -/
structure Response where
  reply : Reply
  console : Console
  log : List Log.Event := []
deriving DecidableEq

/-- Performs a command. -/
def perform (console : Console) : Command → Response
  | .enqueue move => { reply := .queued, console := console.enqueue move }
  | .step =>
    let next := console.step
    ⟨.outcome next.outcome, next.console, next.log⟩
  | .frame =>
    let next := console.frame
    ⟨.summary next.summary, next.console, next.log⟩

end Chip8.Console
