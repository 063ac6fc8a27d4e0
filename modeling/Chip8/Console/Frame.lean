import Chip8.Console.Basic

/-!
# Frames

A frame is one period of the timers: as many steps as the settings say, ended early by a wait for a
key or by a fault, and then one tick of the timers unless the console has stopped.
-/

namespace Chip8

/-- What came of a frame. -/
structure FrameSummary where
  /-- How many instructions were carried out or passed over. -/
  instructions : Nat
  /-- Whether the display was cleared or drawn on. -/
  redrawn : Bool
  /-- Whether the buzzer sounds afterwards. -/
  sounding : Bool
  /-- Whether the console has stopped. -/
  stopped : Bool
deriving DecidableEq, Repr

/-- A frame: its summary, the console afterwards, and what was logged. -/
structure Frame where
  summary : FrameSummary
  console : Console
  log : List Log.Event

/-- A frame under way: the console, what has come of its steps so far, and what was logged. -/
structure FrameRun where
  console : Console
  instructions : Nat := 0
  redrawn : Bool := false
  stopped : Bool := false
  log : Array Log.Event := #[]

namespace FrameRun

/-- Carries out at most `count` more steps: none after one that finds a key awaited or the console
stopped. -/
def steps (run : FrameRun) : Nat → FrameRun
  | 0 => run
  | count + 1 =>
    let next := run.console.step
    let log := run.log ++ next.log
    match next.outcome with
    | .ran status =>
      steps { run with
        console := next.console
        instructions := run.instructions + 1
        redrawn := run.redrawn || status == .redraw
        log } count
    | .passedOver _ =>
      steps { run with console := next.console, instructions := run.instructions + 1, log } count
    | .awaitingKey => { run with console := next.console, log }
    | .stopped _ => { run with console := next.console, stopped := true, log }

/-- Ends a frame: the timers tick unless the console has stopped. -/
def finish (run : FrameRun) : Frame :=
  let console :=
    if run.stopped then run.console
    else { run.console with machine := run.console.machine.tick }
  { summary :=
      { instructions := run.instructions
        redrawn := run.redrawn
        sounding := console.machine.isSounding
        stopped := run.stopped }
    console
    log := run.log.toList }

end FrameRun

namespace Console

/-- One timer period of a console. -/
def frame (console : Console) : Frame :=
  (FrameRun.steps { console } console.settings.frameLength).finish

end Console

end Chip8
