import Chip8.CallStack
import Chip8.Display
import Chip8.Instruction.Opcode
import Chip8.Keypad
import Chip8.Log
import Chip8.Program
import Chip8.Random.Keystream
import Chip8.RegisterFile
import Chip8.Settings

/-!
# The machine

The whole state of a machine, how it starts, and what happens to it from outside: its timers are
ticked, its keys are pressed and released, programs are put into it. What its instructions do is in
`Chip8.Machine.Effect`.

Whatever can fail is an `Attempt`: a result, the machine that is left in either case, and the events
to be logged.
-/

namespace Chip8

/-- Everything that a program can observe or change. -/
structure Machine where
  memory : Memory
  registers : RegisterFile
  /-- The index register `I`, the address that sprites, digits and block transfers are at. -/
  index : UInt16
  /-- The address of the next instruction. -/
  pc : UInt16
  calls : CallStack
  delay : UInt8
  sound : UInt8
  display : Display
  keypad : Keypad
  /-- Whether a key press is awaited. Until it comes, no instruction is carried out. -/
  waiting : Bool
  /-- The register that the awaited key press sets, or that the last one awaited has set. -/
  keyRegister : RegisterIndex
  transfer : TransferMode
  random : Keystream
deriving DecidableEq

/-- What comes of an operation that may fail: its result, the machine afterwards, and what was
logged. -/
structure Attempt (ε α : Type) where
  result : Except ε α
  machine : Machine
  log : List Log.Event := []

namespace Attempt

variable {ε α : Type}

/-- Success without an answer. -/
def done (m : Machine) : Attempt ε Unit :=
  ⟨.ok (), m, []⟩

/-- Failure, with the machine as it is. -/
def failed (reason : ε) (m : Machine) : Attempt ε α :=
  ⟨.error reason, m, []⟩

end Attempt

namespace Machine

/-- A machine without a program, about to run what lies at the start address. -/
def fresh (transfer : TransferMode) (random : Keystream) : Machine where
  memory := Memory.initial
  registers := RegisterFile.zero
  index := 0
  pc := UInt16.ofNat Memory.programStart
  calls := CallStack.empty
  delay := 0
  sound := 0
  display := Display.initial
  keypad := Keypad.released
  waiting := false
  keyRegister := RegisterFile.first
  transfer := transfer
  random := random

/-- The random source of a machine with the given settings. Without a seed it reads the keystream of
`entropy`, a key from outside. -/
def randomSource (settings : Settings) (entropy : ChaCha.Key) : Keystream :=
  match settings.seed with
  | some seed => .ofSeed seed
  | none => .ofKey entropy

/-- A fresh machine with the given settings. -/
def ofSettings (settings : Settings) (entropy : ChaCha.Key) : Machine :=
  fresh settings.transfer (randomSource settings entropy)

/-! ## The program counter -/

/-- The opcode that the program counter points at. -/
def fetch (m : Machine) : Opcode :=
  ⟨m.memory.word m.pc⟩

/-- Goes past the instruction that the program counter points at. -/
def pass (m : Machine) : Machine :=
  { m with pc := m.pc + Opcode.size }

/-! ## Timers -/

/-- A timer one tick later: timers stop at zero. -/
def countDown (timer : UInt8) : UInt8 :=
  if timer = 0 then 0 else timer - 1

/-- Both timers tick. -/
def tick (m : Machine) : Machine :=
  { m with delay := countDown m.delay, sound := countDown m.sound }

/-- Whether the buzzer sounds. -/
def isSounding (m : Machine) : Bool :=
  m.sound != 0

/-! ## Keys -/

/-- The key of a code goes down. If a key is awaited, its name goes to the register that awaits it
and the wait ends. -/
def press (m : Machine) (code : UInt8) : Machine :=
  let key := Key.ofCode code
  let keypad := m.keypad.set key true
  if m.waiting then
    { m with keypad, registers := m.registers.set m.keyRegister key.toByte, waiting := false }
  else
    { m with keypad }

/-- What a key press logs: that it ended a wait. -/
def pressLog (m : Machine) (code : UInt8) : List Log.Event :=
  if m.waiting then [.keyDelivered (Key.ofCode code) m.keyRegister] else []

/-- The key of a code goes up. -/
def release (m : Machine) (code : UInt8) : Machine :=
  { m with keypad := m.keypad.set (Key.ofCode code) false }

/-! ## Programs -/

/-- Puts a program into memory. -/
def install (m : Machine) (program : Program) : Machine :=
  { m with memory := m.memory.install program.bytes }

/-- What putting a program into memory logs. -/
def installLog (program : Program) : List Log.Event :=
  [.loaded program.size]

/-- Reads an image and puts it into memory. The image is read as a whole first. -/
def load (m : Machine) (source : ByteSource) : Attempt LoadError Unit :=
  match Program.ofSource source with
  | .error reason => .failed reason m
  | .ok program => ⟨.ok (), m.install program, installLog program⟩

/-! ## The display -/

/-- Takes the display's flag, and resets it. -/
def takeStale (m : Machine) : Bool × Machine :=
  let (stale, display) := m.display.takeStale
  (stale, { m with display })

end Machine

end Chip8
