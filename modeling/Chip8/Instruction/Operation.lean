/-!
# Operations

The thirty-five things that an instruction can do. Each has a mnemonic, under which the log shows
it, and a short name without blanks, under which the rows of the decoding table are listed.
-/

namespace Chip8

/-- What an instruction does. In the comments `Vx` and `Vy` are the registers that the second and
third nibble name, `byte` is the low byte, `addr` the low twelve bits and `n` the lowest nibble. -/
inductive Operation where
  /-- Blank the display. -/
  | clear
  /-- Go back to the youngest return address. -/
  | ret
  /-- Call a routine in the host's machine code: ignored. -/
  | routine
  /-- Go to `addr`. -/
  | jump
  /-- Go to `addr`, and remember where to come back to. -/
  | call
  /-- Skip the next instruction if `Vx` is `byte`. -/
  | skipIfByte
  /-- Skip the next instruction if `Vx` is not `byte`. -/
  | skipUnlessByte
  /-- Skip the next instruction if `Vx` is `Vy`. -/
  | skipIfSame
  /-- `Vx` becomes `byte`. -/
  | setByte
  /-- `byte` is added to `Vx`, without a flag. -/
  | addByte
  /-- `Vx` becomes `Vy`. -/
  | copy
  /-- `Vx` becomes its disjunction with `Vy`. -/
  | or
  /-- `Vx` becomes its conjunction with `Vy`. -/
  | and
  /-- `Vx` becomes its exclusive disjunction with `Vy`. -/
  | xor
  /-- `Vy` is added to `Vx`; the flag is the carry. -/
  | add
  /-- `Vy` is taken from `Vx`; the flag is set if nothing is borrowed. -/
  | subtract
  /-- `Vx` is halved; the flag is the bit that falls off. -/
  | shiftRight
  /-- `Vx` becomes `Vy` less `Vx`; the flag is set if nothing is borrowed. -/
  | subtractFrom
  /-- `Vx` is doubled; the flag is the bit that falls off. -/
  | shiftLeft
  /-- Skip the next instruction if `Vx` is not `Vy`. -/
  | skipUnlessSame
  /-- The index register becomes `addr`. -/
  | setIndex
  /-- Go to `addr` plus `V0`. -/
  | jumpOffset
  /-- `Vx` becomes a random byte, masked by `byte`. -/
  | random
  /-- Draw the `n` rows at the index register at `(Vx, Vy)`; the flag tells of a collision. -/
  | draw
  /-- Skip the next instruction if the key `Vx` is down. -/
  | skipIfKey
  /-- Skip the next instruction if the key `Vx` is up. -/
  | skipUnlessKey
  /-- `Vx` becomes the delay timer. -/
  | getDelay
  /-- Wait for a key press, which sets `Vx`. -/
  | awaitKey
  /-- The delay timer becomes `Vx`. -/
  | setDelay
  /-- The sound timer becomes `Vx`. -/
  | setSound
  /-- `Vx` is added to the index register; the flag tells whether it passes the last address. -/
  | addIndex
  /-- The index register becomes the address of the glyph for `Vx`. -/
  | glyph
  /-- The three decimal digits of `Vx` go to memory at the index register. -/
  | digits
  /-- A run of registers goes to memory (or comes from it, by the transfer mode). -/
  | storeRun
  /-- A run of registers comes from memory (or goes to it, by the transfer mode). -/
  | loadRun
deriving DecidableEq, Repr

namespace Operation

/-- All operations. -/
def all : List Operation :=
  [clear, ret, routine, jump, call, skipIfByte, skipUnlessByte, skipIfSame, setByte, addByte, copy,
    or, and, xor, add, subtract, shiftRight, subtractFrom, shiftLeft, skipUnlessSame, setIndex,
    jumpOffset, random, draw, skipIfKey, skipUnlessKey, getDelay, awaitKey, setDelay, setSound,
    addIndex, glyph, digits, storeRun, loadRun]

/-- The assembler's way of writing an operation. -/
def mnemonic : Operation → String
  | clear => "CLS"
  | ret => "RET"
  | routine => "SYS addr"
  | jump => "JP addr"
  | call => "CALL addr"
  | skipIfByte => "SE Vx, byte"
  | skipUnlessByte => "SNE Vx, byte"
  | skipIfSame => "SE Vx, Vy"
  | setByte => "LD Vx, byte"
  | addByte => "ADD Vx, byte"
  | copy => "LD Vx, Vy"
  | or => "OR Vx, Vy"
  | and => "AND Vx, Vy"
  | xor => "XOR Vx, Vy"
  | add => "ADD Vx, Vy"
  | subtract => "SUB Vx, Vy"
  | shiftRight => "SHR Vx"
  | subtractFrom => "SUBN Vx, Vy"
  | shiftLeft => "SHL Vx"
  | skipUnlessSame => "SNE Vx, Vy"
  | setIndex => "LD I, addr"
  | jumpOffset => "JP V0, addr"
  | random => "RND Vx, byte"
  | draw => "DRW Vx, Vy, n"
  | skipIfKey => "SKP Vx"
  | skipUnlessKey => "SKNP Vx"
  | getDelay => "LD Vx, DT"
  | awaitKey => "LD Vx, K"
  | setDelay => "LD DT, Vx"
  | setSound => "LD ST, Vx"
  | addIndex => "ADD I, Vx"
  | glyph => "LD F, Vx"
  | digits => "LD B, Vx"
  | storeRun => "LD [I], Vx"
  | loadRun => "LD Vx, [I]"

/-- The short name of an operation: its mnemonic run together, or the verb alone where that is
enough. -/
def name : Operation → String
  | clear => "Cls"
  | ret => "Ret"
  | routine => "Sys"
  | jump => "Jp"
  | call => "Call"
  | skipIfByte => "SeVxByte"
  | skipUnlessByte => "SneVxByte"
  | skipIfSame => "SeVxVy"
  | setByte => "LdVxByte"
  | addByte => "AddVxByte"
  | copy => "LdVxVy"
  | or => "Or"
  | and => "And"
  | xor => "Xor"
  | add => "AddVxVy"
  | subtract => "Sub"
  | shiftRight => "Shr"
  | subtractFrom => "Subn"
  | shiftLeft => "Shl"
  | skipUnlessSame => "SneVxVy"
  | setIndex => "LdIAddr"
  | jumpOffset => "JpV0Addr"
  | random => "Rnd"
  | draw => "Drw"
  | skipIfKey => "Skp"
  | skipUnlessKey => "Sknp"
  | getDelay => "LdVxDt"
  | awaitKey => "LdVxK"
  | setDelay => "LdDtVx"
  | setSound => "LdStVx"
  | addIndex => "AddIVx"
  | glyph => "LdFVx"
  | digits => "LdBVx"
  | storeRun => "LdIVx"
  | loadRun => "LdVxI"

/-- The operation of a short name. -/
def ofName? (text : String) : Option Operation :=
  all.find? fun operation => operation.name == text

/-- Every operation is in `all`. -/
theorem mem_all (operation : Operation) : operation ∈ all := by
  cases operation <;> decide

end Operation

end Chip8
