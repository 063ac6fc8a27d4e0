import Chip8.Font
import Chip8.Instruction.Operation
import Chip8.Machine.Basic

/-!
# Effects

What each operation does to a machine. An operation looks after the program counter itself: it goes
past its own instruction, past the next one too if a skip condition holds, or to an address of its
own.

Operations that set a flag compute it from the operands as they were, and set `VF` after everything
else, so that with `VF` as the destination the flag is what remains. A fault is found before
anything is changed.
-/

namespace Chip8

namespace Machine

/-- Goes past this instruction, and past the next one too if the condition holds. -/
def passNextIf (m : Machine) (condition : Bool) : Machine :=
  if condition then m.pass.pass else m.pass

/-- Sets one register. -/
def setRegister (m : Machine) (r : RegisterIndex) (value : UInt8) : Machine :=
  { m with registers := m.registers.set r value }

/-- Sets the flag register to one or zero. -/
def setFlag (m : Machine) (flag : Bool) : Machine :=
  m.setRegister RegisterFile.flag flag.toUInt8

/-- Sets a register, then the flag register. -/
def setResult (m : Machine) (r : RegisterIndex) (value : UInt8) (flag : Bool) : Machine :=
  (m.setRegister r value).setFlag flag

/-! ## Block transfers -/

/-- Copies `count` bytes from memory at the index register to registers from number `base` on. -/
def bringRun (m : Machine) (base count : Nat) : Machine :=
  { m with registers := m.registers.overwrite base (m.memory.slice m.index count) }

/-- Copies `count` registers from number `base` on to memory at the index register. -/
def takeRun (m : Machine) (base count : Nat) : Machine :=
  { m with memory := m.memory.writeAll m.index (m.registers.window base count) }

/-- Moves the index register on. -/
def moveIndex (m : Machine) (count : Nat) : Machine :=
  { m with index := m.index + UInt16.ofNat count }

/-- Carries out a transfer of `count` registers that the index register counts into the register
file as well: refused if the run leaves the register file, and past the run afterwards. -/
def transferIndexed (m : Machine) (count : Nat) (move : Machine → Nat → Nat → Machine) :
    Attempt Fault Unit :=
  if 16 < m.index.toNat + count then
    .failed (.windowOverrun m.index count) m
  else
    .done ((move m m.index.toNat count).moveIndex count).pass

/-! ## Drawing -/

/-- Draws the `n` rows at the index register at `(Vx, Vy)`, and flags a collision. -/
def drawSprite (m : Machine) (w : Opcode) : Machine :=
  let sprite := m.memory.slice m.index w.n
  let (collided, display) := m.display.draw sprite (m.registers.get w.x) (m.registers.get w.y)
  { m with display }.setFlag collided

/-- The decimal digits of a byte: hundreds, tens, ones. -/
def decimalDigits (value : UInt8) : List UInt8 :=
  [value / 100, value / 10 % 10, value % 10]

end Machine

namespace Operation

open Machine

/-- What an operation does with the operands of an opcode. The opcode need not stand for the
operation: its nibbles are all that counts. -/
def effect (operation : Operation) (w : Opcode) (m : Machine) : Attempt Fault Unit :=
  let vx := m.registers.get w.x
  let vy := m.registers.get w.y
  match operation with
  | clear => .done { m with display := m.display.clear }.pass
  | ret =>
    match m.calls.pop? with
    | none => .failed (.callStackEmpty m.pc) m
    | some (address, calls) => .done { m with calls, pc := address }
  | routine => { Attempt.done m.pass with log := [.routineIgnored w.nnn] }
  | jump => .done { m with pc := w.nnn }
  | call =>
    match m.calls.push? m.pass.pc with
    | none => .failed (.callStackFull m.pc) m
    | some calls => .done { m with calls, pc := w.nnn }
  | skipIfByte => .done (m.passNextIf (vx == w.kk))
  | skipUnlessByte => .done (m.passNextIf (vx != w.kk))
  | skipIfSame => .done (m.passNextIf (vx == vy))
  | setByte => .done (m.setRegister w.x w.kk).pass
  | addByte => .done (m.setRegister w.x (vx + w.kk)).pass
  | copy => .done (m.setRegister w.x vy).pass
  | or => .done (m.setRegister w.x (vx ||| vy)).pass
  | and => .done (m.setRegister w.x (vx &&& vy)).pass
  | xor => .done (m.setRegister w.x (vx ^^^ vy)).pass
  | add => .done (m.setResult w.x (vx + vy) (256 ≤ vx.toNat + vy.toNat)).pass
  | subtract => .done (m.setResult w.x (vx - vy) (vy ≤ vx)).pass
  | shiftRight => .done (m.setResult w.x (vx >>> 1) (vx % 2 == 1)).pass
  | subtractFrom => .done (m.setResult w.x (vy - vx) (vx ≤ vy)).pass
  | shiftLeft => .done (m.setResult w.x (vx <<< 1) (128 ≤ vx)).pass
  | skipUnlessSame => .done (m.passNextIf (vx != vy))
  | setIndex => .done { m with index := w.nnn }.pass
  | jumpOffset => .done { m with pc := w.nnn + (m.registers.get RegisterFile.first).toUInt16 }
  | random =>
    let (byte, source) := m.random.next
    .done ({ m with random := source }.setRegister w.x (byte &&& w.kk)).pass
  | draw => .done (m.drawSprite w).pass
  | skipIfKey => .done (m.passNextIf (m.keypad.isDown (Key.ofCode vx)))
  | skipUnlessKey => .done (m.passNextIf (!m.keypad.isDown (Key.ofCode vx)))
  | getDelay => .done (m.setRegister w.x m.delay).pass
  | awaitKey =>
    { Attempt.done { m with waiting := true, keyRegister := w.x }.pass with
      log := [.awaitingKey w.x] }
  | setDelay => .done { m with delay := vx }.pass
  | setSound => .done { m with sound := vx }.pass
  | addIndex =>
    .done ({ m with index := m.index + vx.toUInt16 }.setFlag
      (0xFFF < m.index.toNat + vx.toNat)).pass
  | glyph => .done { m with index := Font.glyphAddress vx }.pass
  | digits => .done { m with memory := m.memory.writeAll m.index (decimalDigits vx) }.pass
  | storeRun =>
    match m.transfer with
    | .indexed => m.transferIndexed (w.x + 1) bringRun
    | .standard => .done (m.takeRun 0 (w.x + 1)).pass
  | loadRun =>
    match m.transfer with
    | .indexed => m.transferIndexed (w.x + 1) takeRun
    | .standard => .done (m.bringRun 0 (w.x + 1)).pass

end Operation

end Chip8
