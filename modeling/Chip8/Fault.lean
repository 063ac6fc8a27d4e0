import Chip8.Hexadecimal
import Chip8.Instruction.Opcode

/-!
# Faults

The four ways in which an instruction can be refused. A program can be carried on after an unknown
opcode by going past it; the other faults leave it with nowhere to go.
-/

namespace Chip8

/-- Why an instruction was not carried out. -/
inductive Fault where
  /-- No row of the decoding table covers the opcode at `pc`. -/
  | unknownOpcode (opcode : Opcode) (pc : UInt16)
  /-- A call at `pc` with all slots of the call stack taken. -/
  | callStackFull (pc : UInt16)
  /-- A return at `pc` with no call outstanding. -/
  | callStackEmpty (pc : UInt16)
  /-- A transfer of `count` registers from number `first` on, which do not all exist. -/
  | windowOverrun (first : UInt16) (count : Nat)
deriving DecidableEq, Repr

namespace Fault

/-- Whether the program can go on after the fault. -/
def isRecoverable : Fault → Bool
  | unknownOpcode _ _ => true
  | _ => false

/-- The wording of a fault. -/
def message : Fault → String
  | unknownOpcode opcode pc =>
    "unknown opcode " ++ Hexadecimal.word opcode.word ++ " at " ++ Hexadecimal.address pc
  | callStackFull pc => "call stack overflow at " ++ Hexadecimal.address pc
  | callStackEmpty pc => "return with empty call stack at " ++ Hexadecimal.address pc
  | windowOverrun first count =>
    "register block transfer of " ++ toString count ++ " registers from V" ++
      Hexadecimal.name first.toNat ++ " runs past the register file"

example : message (.unknownOpcode ⟨0x5AB1⟩ 0x2A4) = "unknown opcode 0x5ab1 at 0x2a4" := by decide

end Fault

end Chip8
