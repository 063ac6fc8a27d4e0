/-!
# Hexadecimal text

Messages and log lines show numbers in base sixteen in two ways: opcodes and addresses as `0x` and
lower-case digits, filled up with zeros to a least width, and names of registers and keys as bare
upper-case digits. A number that needs more digits than the least width gets them all.
-/

namespace Chip8.Hexadecimal

/-- The lower-case digits of `n`, at least `width` of them. -/
def digits (width n : Nat) : List Char :=
  (Nat.toDigits 16 n).leftpad width '0'

/-- `0x` and the lower-case digits of `n`, at least `width` of them. -/
def marked (width n : Nat) : String :=
  "0x" ++ String.ofList (digits width n)

/-- An opcode, a template or a mask: at least four digits after the `0x`. -/
def word (w : UInt16) : String :=
  marked 4 w.toNat

/-- An address: at least three digits after the `0x`, four when the address needs them. -/
def address (a : UInt16) : String :=
  marked 3 a.toNat

example : word 0xE0 = "0x00e0" ∧ address 0 = "0x000" ∧ address 0x10FE = "0x10fe" := by decide

/-- The upper-case digits of `n`, unmarked and unpadded: the name of a register or of a key. -/
def name (n : Nat) : String :=
  String.ofList ((Nat.toDigits 16 n).map Char.toUpper)

example : name 0xB = "B" ∧ name 0xABC = "ABC" := by decide

end Chip8.Hexadecimal
