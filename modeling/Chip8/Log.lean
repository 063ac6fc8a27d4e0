import Chip8.Fault
import Chip8.Instruction.Operation
import Chip8.Keypad
import Chip8.Memory
import Chip8.RegisterFile

/-!
# The log

Machines and consoles tell what they do as a list of events. An event has a severity and a wording;
whoever listens chooses the least severity to hear about.
-/

namespace Chip8.Log

/-- How much an event matters. -/
inductive Severity where
  | error
  | warn
  | info
  | debug
  | trace
deriving DecidableEq, Repr

namespace Severity

/-- The place of a severity, zero being the gravest. -/
def rank : Severity → Nat
  | error => 0
  | warn => 1
  | info => 2
  | debug => 3
  | trace => 4

/-- Whether one who listens from `threshold` up hears of a severity. -/
def admits (threshold severity : Severity) : Bool :=
  severity.rank ≤ threshold.rank

/-- The word that a log line begins with. -/
def label : Severity → String
  | error => "ERROR"
  | warn => "WARN"
  | info => "INFO"
  | debug => "DEBUG"
  | trace => "TRACE"

end Severity

/-- Something that a machine or a console did. -/
inductive Event where
  /-- A program of `size` bytes was put into memory. -/
  | loaded (size : Nat)
  /-- The instruction at `pc` is about to be carried out. -/
  | dispatched (pc : UInt16) (opcode : Opcode) (operation : Operation)
  /-- A call of the host's machine code was passed over. -/
  | routineIgnored (target : UInt16)
  /-- The machine began to wait for a key. -/
  | awaitingKey (register : RegisterIndex)
  /-- A key press ended the wait. -/
  | keyDelivered (key : Key) (register : RegisterIndex)
  /-- The console goes past an instruction that was refused. -/
  | skipping (fault : Fault)
  /-- The console stops for good. -/
  | halting (fault : Fault)
deriving DecidableEq, Repr

namespace Event

/-- How much an event matters. -/
def severity : Event → Severity
  | dispatched _ _ _ => .trace
  | loaded _ | awaitingKey _ | keyDelivered _ _ => .debug
  | routineIgnored _ | skipping _ => .warn
  | halting _ => .error

/-- The wording of an event. -/
def text : Event → String
  | loaded size =>
    "loaded " ++ toString size ++ " byte program at " ++
      Hexadecimal.address (UInt16.ofNat Memory.programStart)
  | dispatched pc opcode operation =>
    Hexadecimal.address pc ++ ": " ++ Hexadecimal.word opcode.word ++ " " ++ operation.mnemonic
  | routineIgnored target => "ignoring machine code routine at " ++ Hexadecimal.address target
  | awaitingKey register => "waiting for a key press into V" ++ Hexadecimal.name register
  | keyDelivered key register =>
    "key " ++ Hexadecimal.name key ++ " resumed execution into V" ++ Hexadecimal.name register
  | skipping fault => "skipping: " ++ fault.message
  | halting fault => "halting: " ++ fault.message

/-- The line that an event leaves in the log. -/
def line (event : Event) : String :=
  event.severity.label ++ " " ++ event.text

end Event

/-- The lines that one who listens from `threshold` up hears. -/
def lines (threshold : Severity) (events : List Event) : List String :=
  (events.filter fun event => threshold.admits event.severity).map Event.line

end Chip8.Log
