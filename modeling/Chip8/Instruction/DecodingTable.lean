import Chip8.Hexadecimal
import Chip8.Instruction.Opcode
import Chip8.Instruction.Operation

/-!
# The decoding table

A row of the table says which opcodes stand for an operation: those that agree with a template
under a mask. A table is searched from the top, both for an opcode (`match?`) and for an operation
(`rowOf?`), and the first row found is taken. In the standard table the row of `routine` also
matches the opcodes of `clear` and `ret`, and therefore comes last.
-/

namespace Chip8

/-- The opcodes of one operation: those whose bits under `mask` are `template`. -/
structure Row where
  operation : Operation
  template : UInt16
  mask : UInt16
deriving DecidableEq, Repr

namespace Row

/-- Whether an opcode belongs to the row. -/
def covers (row : Row) (w : Opcode) : Bool :=
  w.word &&& row.mask == row.template

/-- The row written out with the names of its fields. -/
def text (row : Row) : String :=
  "Instruction \x7b kind: " ++ row.operation.name ++
    ", template: " ++ Hexadecimal.word row.template ++
    ", mask: " ++ Hexadecimal.word row.mask ++ " \x7d"

end Row

/-- Rows in the order in which they are tried. -/
abbrev DecodingTable := List Row

namespace DecodingTable

/-- The first row that an opcode belongs to. -/
def match? (table : DecodingTable) (w : Opcode) : Option Row :=
  table.find? fun row => row.covers w

/-- The operation that an opcode stands for. -/
def decode? (table : DecodingTable) (w : Opcode) : Option Operation :=
  (table.match? w).map Row.operation

/-- The first row of an operation. -/
def rowOf? (table : DecodingTable) (operation : Operation) : Option Row :=
  table.find? fun row => row.operation == operation

/-- The table that machines use. -/
def standard : DecodingTable :=
  [⟨.clear, 0x00E0, 0xFFFF⟩,
    ⟨.ret, 0x00EE, 0xFFFF⟩,
    ⟨.jump, 0x1000, 0xF000⟩,
    ⟨.call, 0x2000, 0xF000⟩,
    ⟨.skipIfByte, 0x3000, 0xF000⟩,
    ⟨.skipUnlessByte, 0x4000, 0xF000⟩,
    ⟨.skipIfSame, 0x5000, 0xF00F⟩,
    ⟨.setByte, 0x6000, 0xF000⟩,
    ⟨.addByte, 0x7000, 0xF000⟩,
    ⟨.copy, 0x8000, 0xF00F⟩,
    ⟨.or, 0x8001, 0xF00F⟩,
    ⟨.and, 0x8002, 0xF00F⟩,
    ⟨.xor, 0x8003, 0xF00F⟩,
    ⟨.add, 0x8004, 0xF00F⟩,
    ⟨.subtract, 0x8005, 0xF00F⟩,
    ⟨.shiftRight, 0x8006, 0xF00F⟩,
    ⟨.subtractFrom, 0x8007, 0xF00F⟩,
    ⟨.shiftLeft, 0x800E, 0xF00F⟩,
    ⟨.skipUnlessSame, 0x9000, 0xF00F⟩,
    ⟨.setIndex, 0xA000, 0xF000⟩,
    ⟨.jumpOffset, 0xB000, 0xF000⟩,
    ⟨.random, 0xC000, 0xF000⟩,
    ⟨.draw, 0xD000, 0xF000⟩,
    ⟨.skipIfKey, 0xE09E, 0xF0FF⟩,
    ⟨.skipUnlessKey, 0xE0A1, 0xF0FF⟩,
    ⟨.getDelay, 0xF007, 0xF0FF⟩,
    ⟨.awaitKey, 0xF00A, 0xF0FF⟩,
    ⟨.setDelay, 0xF015, 0xF0FF⟩,
    ⟨.setSound, 0xF018, 0xF0FF⟩,
    ⟨.addIndex, 0xF01E, 0xF0FF⟩,
    ⟨.glyph, 0xF029, 0xF0FF⟩,
    ⟨.digits, 0xF033, 0xF0FF⟩,
    ⟨.storeRun, 0xF055, 0xF0FF⟩,
    ⟨.loadRun, 0xF065, 0xF0FF⟩,
    ⟨.routine, 0x0000, 0xF000⟩]

example : standard.decode? ⟨0x00E0⟩ = some .clear ∧ standard.decode? ⟨0x00E1⟩ = some .routine ∧
    standard.decode? ⟨0x5AB1⟩ = none := by decide

/-- The standard table has a row for every operation, and it is the one found. -/
theorem rowOf?_standard (operation : Operation) :
    ∃ row, standard.rowOf? operation = some row ∧ row.operation = operation := by
  cases operation <;> exact ⟨_, rfl, rfl⟩

/-- What a search for an opcode finds covers the opcode. -/
theorem covers_of_match? {table : DecodingTable} {w : Opcode} {row : Row}
    (h : table.match? w = some row) : row.covers w = true := by
  have found := List.find?_some h
  exact found

end DecodingTable

end Chip8
