import Chip8.Machine.Execution

/-!
# The console

A console plays a machine on behalf of someone at the keys. Key moves may be queued at any time and
are delivered between instructions. An unknown opcode is passed over or stops the console, by the
settings; any other fault stops it. A stopped console keeps its fault, its machine and its queue as
they are.
-/

namespace Chip8

/-- A key going down or up. -/
inductive KeyMove where
  | down (code : UInt8)
  | up (code : UInt8)
deriving DecidableEq, Repr

namespace KeyMove

/-- Delivers a move to a machine. -/
def deliver (m : Machine) : KeyMove → Machine
  | down code => m.press code
  | up code => m.release code

/-- Delivers moves one after the other. -/
def deliverAll (m : Machine) (moves : List KeyMove) : Machine :=
  moves.foldl deliver m

/-- What delivering a move logs. -/
def log (m : Machine) : KeyMove → List Log.Event
  | down code => m.pressLog code
  | up _ => []

/-- What delivering moves one after the other logs. -/
def logAll (m : Machine) : List KeyMove → List Log.Event
  | [] => []
  | move :: rest => move.log m ++ logAll (deliver m move) rest

end KeyMove

/-- What came of a step of a console. -/
inductive Outcome where
  /-- An instruction was carried out. -/
  | ran (status : Status)
  /-- A key is awaited. -/
  | awaitingKey
  /-- An unknown opcode was passed over. -/
  | passedOver (opcode : Opcode)
  /-- The console has stopped, now or before. -/
  | stopped (fault : Fault)
deriving DecidableEq, Repr

/-- A machine being played. -/
structure Console where
  machine : Machine
  settings : Settings
  /-- Key moves not yet delivered, oldest first. -/
  queue : List KeyMove
  /-- Why the console has stopped, if it has. -/
  fault : Option Fault
deriving DecidableEq

/-- What came of a step, the console afterwards, and what was logged. -/
structure Step where
  outcome : Outcome
  console : Console
  log : List Log.Event

/-- What came of loading a program, the console afterwards, and what was logged. -/
structure Loading where
  result : Except LoadError Unit
  console : Console
  log : List Log.Event

namespace Console

/-- A console with a fresh machine. -/
def ofSettings (settings : Settings) (entropy : ChaCha.Key) : Console :=
  ⟨Machine.ofSettings settings entropy, settings, [], none⟩

/-- A console with a program in its machine. -/
def ofProgram (settings : Settings) (entropy : ChaCha.Key) (program : Program) : Console :=
  ⟨(Machine.ofSettings settings entropy).install program, settings, [], none⟩

/-- Reads an image and puts it into the machine. A fault stays, and so does the queue. -/
def load (console : Console) (source : ByteSource) : Loading :=
  let attempt := console.machine.load source
  { result := attempt.result
    console := { console with machine := attempt.machine }
    log := attempt.log }

/-- Queues a key move. -/
def enqueue (console : Console) (move : KeyMove) : Console :=
  { console with queue := console.queue ++ [move] }

/-- Delivers all queued key moves. -/
def deliver (console : Console) : Console :=
  { console with machine := KeyMove.deliverAll console.machine console.queue, queue := [] }

/-- One instruction of a console that has not stopped and has nothing queued. -/
def play (console : Console) : Step :=
  if console.machine.waiting then
    ⟨.awaitingKey, console, []⟩
  else
    let attempt := console.machine.cycle
    match attempt.result with
    | .ok status => ⟨.ran status, { console with machine := attempt.machine }, attempt.log⟩
    | .error fault =>
      if fault.isRecoverable && console.settings.onUnknown == .pass then
        ⟨.passedOver attempt.machine.fetch, { console with machine := attempt.machine.pass },
          attempt.log ++ [.skipping fault]⟩
      else
        ⟨.stopped fault, { console with machine := attempt.machine, fault := some fault },
          attempt.log ++ [.halting fault]⟩

/-- Delivers the queued key moves, then carries out one instruction. Nothing happens once the
console has stopped. -/
def step (console : Console) : Step :=
  match console.fault with
  | some fault => ⟨.stopped fault, console, []⟩
  | none =>
    let next := console.deliver.play
    { next with log := KeyMove.logAll console.machine console.queue ++ next.log }

end Console

end Chip8
