/-!
# Settings

How a machine and its console are set up. Settings start from the default and are changed through
the functions here, which keep the length of a frame and the magnification of the picture above
zero.
-/

namespace Chip8

/-- Which registers a block transfer moves, and in which direction. -/
inductive TransferMode where
  /-- The index register counts into memory and into the register file alike, and is moved past the
  run. The store instruction brings bytes from memory into registers and the load instruction takes
  registers to memory. A run must lie within the register file. -/
  | indexed
  /-- Registers from `V0` on are stored to, or loaded from, memory at the index register, which
  stays where it is. -/
  | standard
deriving DecidableEq, Repr

/-- What a console does about an opcode that stands for no operation. -/
inductive UnknownPolicy where
  /-- Go past it. -/
  | pass
  /-- Stop for good. -/
  | stop
deriving DecidableEq, Repr

/-- The settings of a console and its machine. -/
structure Settings where
  /-- How block transfers work. -/
  transfer : TransferMode := .indexed
  /-- What to do about unknown opcodes. -/
  onUnknown : UnknownPolicy := .pass
  /-- Instructions a frame. -/
  frameLength : Nat := 9
  /-- Frames, and so ticks of the timers, a second. -/
  frameRate : Nat := 60
  /-- The seed of the random source, if what it yields is to be reproducible. -/
  seed : Option UInt64 := none
  /-- Screen pixels to a pixel of the plane, across and down. -/
  magnification : Nat := 12
deriving DecidableEq, Repr

namespace Settings

/-- Chooses how block transfers work. -/
def setTransfer (s : Settings) (mode : TransferMode) : Settings :=
  { s with transfer := mode }

/-- Chooses what to do about unknown opcodes. -/
def setOnUnknown (s : Settings) (policy : UnknownPolicy) : Settings :=
  { s with onUnknown := policy }

/-- Sets the number of instructions a frame, at least one. -/
def setFrameLength (s : Settings) (length : Nat) : Settings :=
  { s with frameLength := max length 1 }

/-- Fixes the seed of the random source. -/
def setSeed (s : Settings) (seed : UInt64) : Settings :=
  { s with seed := some seed }

/-- Sets the magnification of the picture, at least one. -/
def setMagnification (s : Settings) (magnification : Nat) : Settings :=
  { s with magnification := max magnification 1 }

end Settings

end Chip8
