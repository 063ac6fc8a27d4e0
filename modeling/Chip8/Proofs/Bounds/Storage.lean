import Chip8.Machine.Effect
import Chip8.Proofs.Bounds.Checked

/-!
# Machines as plain storage

A `Machine` cannot hold a stack pointer past its stack, and its registers, keys and pixels are named by
numbers that exist. In a `Storage` the stack pointer and the register of the last key wait are plain
numbers, operands are cut out of opcodes by masks and shifts, and all arrays are accessed by number, so
that accesses can fail.

Each access is given with what it does to the storage of a machine: it does not fail, and it does what
the machine does (`read?_storage`, `setRegister?_storage` and so on).
-/

namespace Chip8

open Checked

/-- The state of a machine with plain numbers in it. -/
structure Storage where
  memory : Memory
  registers : RegisterFile
  index : UInt16
  pc : UInt16
  stack : Vector UInt16 16
  /-- The number of slots of the stack that are taken. -/
  stackPointer : Nat
  delay : UInt8
  sound : UInt8
  display : Display
  keypad : Keypad
  waiting : Bool
  /-- The number of the register that the awaited key press sets. -/
  keyRegister : Nat
  transfer : TransferMode
  random : Keystream
deriving DecidableEq

/-- The state of a machine, its stack pointer and its register numbers made plain. -/
def Machine.storage (m : Machine) : Storage where
  memory := m.memory
  registers := m.registers
  index := m.index
  pc := m.pc
  stack := m.calls.slots
  stackPointer := m.calls.depth
  delay := m.delay
  sound := m.sound
  display := m.display
  keypad := m.keypad
  waiting := m.waiting
  keyRegister := m.keyRegister
  transfer := m.transfer
  random := m.random

namespace Storage

/-- The numbers that are kept from one operation to the next are in range. -/
structure Valid (s : Storage) : Prop where
  stackPointer : s.stackPointer ≤ 16
  keyRegister : s.keyRegister < 16

/-- The storage of a machine is valid. -/
theorem valid_storage (m : Machine) : m.storage.Valid :=
  ⟨Nat.le_of_lt_succ m.calls.depth.isLt, m.keyRegister.isLt⟩

/-- Valid storage is the storage of a machine. -/
theorem Valid.exists_machine {s : Storage} (h : s.Valid) : ∃ m : Machine, m.storage = s :=
  ⟨{ s with
      calls := ⟨s.stack, ⟨s.stackPointer, Nat.lt_succ_of_le h.stackPointer⟩⟩
      keyRegister := ⟨s.keyRegister, h.keyRegister⟩ }, rfl⟩

/-! ## Operands -/

/-- A nibble of an opcode, by a mask and a shift. -/
def nibble (w : Opcode) (mask shift : UInt16) : Nat :=
  ((w.word &&& mask) >>> shift).toUInt8.toNat

/-- The number in the second nibble. -/
def xNumber (w : Opcode) : Nat :=
  nibble w 0x0F00 8

/-- The number in the third nibble. -/
def yNumber (w : Opcode) : Nat :=
  nibble w 0x00F0 4

/-- The number in the lowest nibble. -/
def nNumber (w : Opcode) : Nat :=
  nibble w 0x000F 0

section Operands

/-- A nibble is the remainder of a quotient. -/
theorem nibble_eq (w : Opcode) {mask shift : UInt16} (hshift : shift.toNat < 16)
    (hmask : mask.toNat >>> shift.toNat = 15) :
    nibble w mask shift = w.word.toNat / 2 ^ shift.toNat % 16 := by
  have hand : (w.word.toNat &&& mask.toNat) >>> shift.toNat =
      w.word.toNat / 2 ^ shift.toNat % 16 := by
    rw [Nat.shiftRight_and_distrib, hmask, Nat.and_two_pow_sub_one_eq_mod _ 4,
      Nat.shiftRight_eq_div_pow]
  rw [nibble, UInt16.toNat_toUInt8, UInt16.toNat_shiftRight, UInt16.toNat_and,
    Nat.mod_eq_of_lt hshift, hand]
  omega

variable (w : Opcode)

/-- The masked second nibble is the first operand. -/
@[simp] theorem xNumber_eq : xNumber w = w.x :=
  nibble_eq w (by decide) (by decide)

/-- The masked third nibble is the second operand. -/
@[simp] theorem yNumber_eq : yNumber w = w.y :=
  nibble_eq w (by decide) (by decide)

/-- The masked lowest nibble is the number of rows. -/
@[simp] theorem nNumber_eq : nNumber w = w.n := by
  rw [nNumber, nibble_eq w (by decide) (by decide), UInt16.toNat_zero, Nat.pow_zero, Nat.div_one]
  rfl

end Operands

/-! ## Memory -/

/-- The number of the cell that an address names. -/
def cellNumber (address : UInt16) : Nat :=
  (address &&& 0x0FFF).toNat

/-- To mask an address comes to the remainder that names its cell. -/
@[simp] theorem cellNumber_eq (address : UInt16) : cellNumber address = Memory.cell address := by
  rw [cellNumber, UInt16.toNat_and]
  exact Nat.and_two_pow_sub_one_eq_mod _ 12

/-- The byte at an address. -/
def read? (s : Storage) (address : UInt16) : Option UInt8 :=
  s.memory.bytes[cellNumber address]?

/-- Replaces the byte at an address. -/
def write? (s : Storage) (address : UInt16) (value : UInt8) : Option Storage := do
  let bytes ← put s.memory.bytes (cellNumber address) value
  return { s with memory := ⟨bytes⟩ }

/-- The opcode that the program counter points at. -/
def fetch? (s : Storage) : Option Opcode := do
  let high ← s.read? s.pc
  let low ← s.read? (s.pc + 1)
  return ⟨high.toUInt16 <<< 8 ||| low.toUInt16⟩

/-- The `count` bytes from an address on. -/
def slice? (s : Storage) (address : UInt16) (count : Nat) : Option (List UInt8) :=
  (List.range count).mapM fun i => s.read? (address + UInt16.ofNat i)

section Memory

variable (m : Machine)

/-- A byte is read at any address. -/
theorem read?_storage (address : UInt16) :
    m.storage.read? address = some (m.memory.read address) := by
  rw [read?, cellNumber_eq]
  exact Vector.getElem?_eq_getElem _

/-- A byte is written at any address. -/
theorem write?_storage (address : UInt16) (value : UInt8) :
    m.storage.write? address value =
      some { m with memory := m.memory.write address value }.storage := by
  rw [write?, cellNumber_eq, put_of_lt _ (Memory.cell address).isLt]
  rfl

/-- A fetch is made from any address. Its two bytes are put together by a shift, where the machine
counts. -/
theorem fetch?_storage : m.storage.fetch? = some m.fetch := by
  have hword (high low : UInt8) :
      high.toUInt16 <<< 8 ||| low.toUInt16 = high.toUInt16 * 256 + low.toUInt16 := by
    have hhigh := high.toNat_lt
    have hlow : low.toNat < 2 ^ 8 := low.toNat_lt
    -- the shifted byte and the low one have no bit in common
    have hor : high.toNat <<< 8 % 2 ^ 16 ||| low.toNat = high.toNat * 256 + low.toNat := by
      rw [Nat.mod_eq_of_lt (by rw [Nat.shiftLeft_eq]; omega), ← Nat.shiftLeft_add_eq_or_of_lt hlow,
        Nat.shiftLeft_eq]
    rw [← UInt16.toNat_inj]
    simp only [UInt16.toNat_or, UInt16.toNat_shiftLeft, UInt16.toNat_add, UInt16.toNat_mul,
      UInt8.toNat_toUInt16, UInt16.reduceToNat, Nat.reduceMod, hor]
    omega
  rw [fetch?, read?_storage, read?_storage]
  simp only [Option.bind_eq_bind, Option.bind_some, hword]
  rfl

/-- A run of bytes is read from any address, whatever its length. -/
theorem slice?_storage (address : UInt16) (count : ℕ) :
    m.storage.slice? address count = some (m.memory.slice address count) := by
  simp only [slice?, read?_storage]
  exact List.mapM_pure

end Memory

/-! ## Registers and keys -/

/-- The value of a register. -/
def register? (s : Storage) (i : Nat) : Option UInt8 :=
  s.registers.values[i]?

/-- Sets a register. -/
def setRegister? (s : Storage) (i : Nat) (value : UInt8) : Option Storage := do
  let values ← put s.registers.values i value
  return { s with registers := ⟨values⟩ }

/-- The number of the key that a code names. -/
def keyNumber (code : UInt8) : Nat :=
  (code &&& 0x0F).toNat

/-- The masked code of a key is its number. -/
@[simp] theorem keyNumber_eq (code : UInt8) : keyNumber code = Key.ofCode code := by
  rw [keyNumber, UInt8.toNat_and]
  exact Nat.and_two_pow_sub_one_eq_mod _ 4

/-- Whether the key of a code is down. -/
def isDown? (s : Storage) (code : UInt8) : Option Bool :=
  s.keypad.down[keyNumber code]?

/-- Puts the key of a code down or up. -/
def setKey? (s : Storage) (code : UInt8) (down : Bool) : Option Storage := do
  let keys ← put s.keypad.down (keyNumber code) down
  return { s with keypad := ⟨keys⟩ }

section Registers

variable (m : Machine)

/-- A register that exists is read. -/
theorem register?_storage (r : RegisterIndex) :
    m.storage.register? r = some (m.registers.get r) :=
  Vector.getElem?_eq_getElem r.isLt

/-- A register that exists is written. -/
theorem setRegister?_storage (r : RegisterIndex) (value : UInt8) :
    m.storage.setRegister? r value = some (m.setRegister r value).storage := by
  rw [setRegister?, put_of_lt _ r.isLt]
  rfl

/-- Any code is that of a key, whose state is read. -/
theorem isDown?_storage (code : UInt8) :
    m.storage.isDown? code = some (m.keypad.isDown (Key.ofCode code)) := by
  rw [isDown?, keyNumber_eq]
  exact Vector.getElem?_eq_getElem _

/-- Any code is that of a key, whose state is written. -/
theorem setKey?_storage (code : UInt8) (down : Bool) :
    m.storage.setKey? code down =
      some { m with keypad := m.keypad.set (Key.ofCode code) down }.storage := by
  rw [setKey?, keyNumber_eq, put_of_lt _ (Key.ofCode code).isLt]
  rfl

end Registers

end Storage

end Chip8
