/-!
# Opcodes

An instruction is one 16-bit word. Its four nibbles, read from the top, are the family of the
instruction and up to three operands; the lower two or three nibbles together also serve as a byte
or an address. Every instruction splits its word in the same way, whichever fields it uses.
-/

namespace Chip8

/-- An instruction word. -/
structure Opcode where
  word : UInt16
deriving DecidableEq, Repr

namespace Opcode

/-- The length of an instruction in memory, in bytes. -/
def size : UInt16 := 2

/-- The topmost nibble. -/
def family (w : Opcode) : Fin 16 :=
  ⟨w.word.toNat / 4096 % 16, Nat.mod_lt _ (by decide)⟩

/-- The second nibble: the number of a register. -/
def x (w : Opcode) : Fin 16 :=
  ⟨w.word.toNat / 256 % 16, Nat.mod_lt _ (by decide)⟩

/-- The third nibble: the number of a register. -/
def y (w : Opcode) : Fin 16 :=
  ⟨w.word.toNat / 16 % 16, Nat.mod_lt _ (by decide)⟩

/-- The lowest nibble: a small count. -/
def n (w : Opcode) : Fin 16 :=
  ⟨w.word.toNat % 16, Nat.mod_lt _ (by decide)⟩

/-- The low byte. -/
def kk (w : Opcode) : UInt8 :=
  w.word.toUInt8

/-- The low twelve bits: an address. -/
def nnn (w : Opcode) : UInt16 :=
  w.word % 4096

/-- The nibbles, the topmost first. -/
def nibbles (w : Opcode) : List (Fin 16) :=
  [w.family, w.x, w.y, w.n]

/-- The nibbles make up the word. -/
theorem toNat_word (w : Opcode) :
    w.word.toNat = 4096 * w.family + 256 * w.x + 16 * w.y + w.n := by
  have h := w.word.toNat_lt
  simp only [family, x, y, n]
  omega

/-- The low byte of an opcode is its remainder by 256. -/
theorem toNat_kk (w : Opcode) : w.kk.toNat = w.word.toNat % 256 := by
  simp only [kk, UInt16.toNat_toUInt8]

/-- The address in an opcode is its remainder by 4096. -/
theorem toNat_nnn (w : Opcode) : w.nnn.toNat = w.word.toNat % 4096 := by
  simp only [nnn, UInt16.toNat_mod]
  rfl

end Opcode

end Chip8
