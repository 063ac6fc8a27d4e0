import Chip8.Machine.Execution

/-!
# Commands to a machine

Everything that is done to a machine from outside, as data: a command is performed, answered and
logged. What a machine has been through is then a list of commands.
-/

namespace Chip8.Machine

/-- Something to do to a machine. -/
inductive Command where
  /-- Carry out the instruction that the program counter points at. -/
  | cycle
  /-- Carry out an operation with the operands of an opcode, also while a key is awaited. -/
  | execute (operation : Operation) (w : Opcode)
  /-- Go past the instruction that the program counter points at. -/
  | pass
  /-- Let the timers tick. -/
  | tick
  /-- Put a key down. -/
  | press (code : UInt8)
  /-- Let a key up. -/
  | release (code : UInt8)
  /-- Read an image and put it into memory. -/
  | load (source : ByteSource)
  /-- Take the display's flag. -/
  | takeStale
deriving DecidableEq

/-- What a machine answers to a command. -/
inductive Reply where
  /-- The command has no answer. -/
  | silence
  /-- An instruction was carried out, or a key is awaited. -/
  | status (status : Status)
  /-- An instruction was refused. -/
  | refused (fault : Fault)
  /-- A program is in memory. -/
  | loaded
  /-- No program could be made of the image. -/
  | rejected (reason : LoadError)
  /-- The display's flag. -/
  | stale (flag : Bool)
deriving DecidableEq, Repr

/-- The answer to a command, the machine afterwards, and what was logged. -/
structure Response where
  reply : Reply
  machine : Machine
  log : List Log.Event := []
deriving DecidableEq

namespace Response

/-- An attempted instruction as a response. -/
def ofInstruction (attempt : Attempt Fault Status) : Response :=
  match attempt.result with
  | .ok status => ⟨.status status, attempt.machine, attempt.log⟩
  | .error fault => ⟨.refused fault, attempt.machine, attempt.log⟩

/-- An attempted load as a response. -/
def ofLoad (attempt : Attempt LoadError Unit) : Response :=
  match attempt.result with
  | .ok _ => ⟨.loaded, attempt.machine, attempt.log⟩
  | .error reason => ⟨.rejected reason, attempt.machine, attempt.log⟩

end Response

/-- Performs a command. -/
def perform (m : Machine) : Command → Response
  | .cycle => .ofInstruction m.cycle
  | .execute operation w => .ofInstruction (m.execute operation w)
  | .pass => { reply := .silence, machine := m.pass }
  | .tick => { reply := .silence, machine := m.tick }
  | .press code => { reply := .silence, machine := m.press code, log := m.pressLog code }
  | .release code => { reply := .silence, machine := m.release code }
  | .load source => .ofLoad (m.load source)
  | .takeStale =>
    let (flag, machine) := m.takeStale
    { reply := .stale flag, machine }

end Chip8.Machine
