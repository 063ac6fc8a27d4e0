import Chip8.Machine.Execution
import Chip8.Proofs.Bounds.Loops
import Chip8.Proofs.Machine.Frame

/-!
# Checked effects

What each operation does, on plain storage and with every access and every sum checked (`effect?`). On
the storage of a machine no check fails, and what comes of it is the effect of the operation
(`effect?_storage`), for every operation and every opcode. The same holds of a cycle (`cycle?_storage`).
-/

namespace Chip8

open Checked

namespace Storage

/-- What comes of an operation on storage: its result, and the storage afterwards. -/
structure Attempt (α : Type) where
  result : Except Fault α
  storage : Storage

namespace Attempt

/-- Success without an answer. -/
def done (s : Storage) : Attempt Unit :=
  ⟨.ok (), s⟩

/-- Failure, with the storage as it is. -/
def failed {α : Type} (fault : Fault) (s : Storage) : Attempt α :=
  ⟨.error fault, s⟩

/-- An attempt of a machine, with the storage of the machine. -/
def ofMachine {α : Type} (attempt : Chip8.Attempt Fault α) : Attempt α :=
  ⟨attempt.result, attempt.machine.storage⟩

end Attempt

/-- Goes past this instruction. -/
def pass (s : Storage) : Storage :=
  { s with pc := s.pc + Opcode.size }

/-- Goes past this instruction, and past the next one too if the condition holds. -/
def passNextIf (s : Storage) (condition : Bool) : Storage :=
  if condition then s.pass.pass else s.pass

/-- The value of the register that the second nibble names. -/
def vx? (s : Storage) (w : Opcode) : Option UInt8 :=
  s.register? (xNumber w)

/-- The value of the register that the third nibble names. -/
def vy? (s : Storage) (w : Opcode) : Option UInt8 :=
  s.register? (yNumber w)

/-- Sets the register that the second nibble names. -/
def assign? (s : Storage) (w : Opcode) (value : UInt8) : Option (Attempt Unit) := do
  let s ← s.setRegister? (xNumber w) value
  return .done s.pass

/-- Sets the flag register. -/
def assignFlag? (s : Storage) (flag : Bool) : Option (Attempt Unit) := do
  let s ← s.setRegister? 0xF flag.toUInt8
  return .done s.pass

/-- Sets the register that the second nibble names, then the flag register. -/
def assignResult? (s : Storage) (w : Opcode) (value : UInt8) (flag : Bool) :
    Option (Attempt Unit) := do
  let s ← s.setRegister? (xNumber w) value
  s.assignFlag? flag

/-- A transfer of `count` registers that the index register counts into the register file as well. -/
def transferIndexed? (s : Storage) (count : Nat)
    (move? : List Nat → (Nat → UInt16) → Option Storage) : Option (Attempt Unit) := do
  let stop ← unsigned 64 (s.index.toNat + count)
  if 16 < stop then
    return .failed (.windowOverrun s.index count) s
  else
    let s ← move? (List.range' s.index.toNat count) UInt16.ofNat
    return .done { s with index := s.index + UInt16.ofNat count }.pass

/-- What an operation does with the operands of an opcode, every access and every sum checked. -/
def effect? (operation : Operation) (w : Opcode) (s : Storage) : Option (Attempt Unit) :=
  match operation with
  | .clear => return .done { s with display := s.display.clear }.pass
  | .ret =>
    if s.stackPointer = 0 then
      return .failed (.callStackEmpty s.pc) s
    else do
      let stackPointer ← difference s.stackPointer 1
      let pc ← s.stack[stackPointer]?
      return .done { s with stackPointer, pc }
  | .routine => return .done s.pass
  | .jump => return .done { s with pc := w.nnn }
  | .call =>
    if 16 ≤ s.stackPointer then
      return .failed (.callStackFull s.pc) s
    else do
      let stack ← put s.stack s.stackPointer (s.pc + Opcode.size)
      let stackPointer ← unsigned 64 (s.stackPointer + 1)
      return .done { s with stack, stackPointer, pc := w.nnn }
  | .skipIfByte => return .done (s.passNextIf ((← s.vx? w) == w.kk))
  | .skipUnlessByte => return .done (s.passNextIf ((← s.vx? w) != w.kk))
  | .skipIfSame => return .done (s.passNextIf ((← s.vx? w) == (← s.vy? w)))
  | .setByte => s.assign? w w.kk
  | .addByte => do s.assign? w ((← s.vx? w) + w.kk)
  | .copy => do s.assign? w (← s.vy? w)
  | .or => do s.assign? w ((← s.vx? w) ||| (← s.vy? w))
  | .and => do s.assign? w ((← s.vx? w) &&& (← s.vy? w))
  | .xor => do s.assign? w ((← s.vx? w) ^^^ (← s.vy? w))
  | .add => do
    let vx ← s.vx? w
    let vy ← s.vy? w
    s.assignResult? w (vx + vy) (256 ≤ vx.toNat + vy.toNat)
  | .subtract => do
    let vx ← s.vx? w
    let vy ← s.vy? w
    s.assignResult? w (vx - vy) (vy ≤ vx)
  | .shiftRight => do
    let vx ← s.vx? w
    s.assignResult? w (vx >>> 1) (vx % 2 == 1)
  | .subtractFrom => do
    let vx ← s.vx? w
    let vy ← s.vy? w
    s.assignResult? w (vy - vx) (vx ≤ vy)
  | .shiftLeft => do
    let vx ← s.vx? w
    s.assignResult? w (vx <<< 1) (128 ≤ vx)
  | .skipUnlessSame => return .done (s.passNextIf ((← s.vx? w) != (← s.vy? w)))
  | .setIndex => return .done { s with index := w.nnn }.pass
  | .jumpOffset => return .done { s with pc := w.nnn + (← s.register? 0).toUInt16 }
  | .random =>
    let (byte, random) := s.random.next
    { s with random }.assign? w (byte &&& w.kk)
  | .draw => do
    let sprite ← s.slice? s.index (nNumber w)
    let (collided, display) ← draw? s.display sprite (← s.vx? w) (← s.vy? w)
    { s with display }.assignFlag? collided
  | .skipIfKey => return .done (s.passNextIf (← s.isDown? (← s.vx? w)))
  | .skipUnlessKey => return .done (s.passNextIf (!(← s.isDown? (← s.vx? w))))
  | .getDelay => s.assign? w s.delay
  | .awaitKey => return .done { s with waiting := true, keyRegister := xNumber w }.pass
  | .setDelay => return .done { s with delay := ← s.vx? w }.pass
  | .setSound => return .done { s with sound := ← s.vx? w }.pass
  | .addIndex => do
    let vx ← s.vx? w
    let sum ← unsigned 32 (s.index.toNat + vx.toNat)
    { s with index := s.index + vx.toUInt16 }.assignFlag? (0xFFF < sum)
  | .glyph => do
    let address ← unsigned 16 ((← s.vx? w).toNat * Font.glyphRows)
    return .done { s with index := UInt16.ofNat address }.pass
  | .digits => do
    let vx ← s.vx? w
    let s₁ ← s.write? s.index (vx / 100)
    let s₂ ← s₁.write? (s.index + 1) (vx / 10 % 10)
    let s₃ ← s₂.write? (s.index + 2) (vx % 10)
    return .done s₃.pass
  | .storeRun => do
    let count ← unsigned 64 (xNumber w + 1)
    match s.transfer with
    | .indexed => s.transferIndexed? count s.bring?
    | .standard =>
      let s ← s.take? (List.range' 0 count) fun i => s.index + UInt16.ofNat i
      return .done s.pass
  | .loadRun => do
    let count ← unsigned 64 (xNumber w + 1)
    match s.transfer with
    | .indexed => s.transferIndexed? count s.take?
    | .standard =>
      let s ← s.bring? (List.range' 0 count) fun i => s.index + UInt16.ofNat i
      return .done s.pass

section Effect

variable (m : Machine) (w : Opcode)

/-! ## The helpers on the storage of a machine -/

/-- To skip needs no check. -/
theorem passNextIf_storage (condition : Bool) :
    m.storage.passNextIf condition = (m.passNextIf condition).storage := by
  cases condition <;> rfl

/-- The first operand names a register, as a nibble is below sixteen. -/
theorem vx?_storage : m.storage.vx? w = some (m.registers.get w.x) := by
  rw [vx?, xNumber_eq, register?_storage]

/-- The second operand names a register, as a nibble is below sixteen. -/
theorem vy?_storage : m.storage.vy? w = some (m.registers.get w.y) := by
  rw [vy?, yNumber_eq, register?_storage]

/-- A value is written to the register of the first operand. -/
theorem assign?_storage (value : UInt8) :
    m.storage.assign? w value = some (.ofMachine (.done (m.setRegister w.x value).pass)) := by
  rw [assign?, xNumber_eq, setRegister?_storage]
  rfl

/-- The flag is written to the last register, which there is. -/
theorem assignFlag?_storage (flag : Bool) :
    m.storage.assignFlag? flag = some (.ofMachine (.done (m.setFlag flag).pass)) := by
  have hset : m.storage.setRegister? 0xF flag.toUInt8 = some (m.setFlag flag).storage :=
    setRegister?_storage m RegisterFile.flag flag.toUInt8
  rw [assignFlag?, hset]
  rfl

/-- A result and its flag are written, the flag after the result. -/
theorem assignResult?_storage (value : UInt8) (flag : Bool) :
    m.storage.assignResult? w value flag =
      some (.ofMachine (.done (m.setResult w.x value flag).pass)) := by
  rw [assignResult?, xNumber_eq, setRegister?_storage, Option.bind_eq_bind, Option.bind_some,
    assignFlag?_storage]
  rfl

/-! ## Calls and returns -/

/-- A return never takes an address from below the stack: with an empty stack it fails as the machine
does. -/
theorem ret?_storage : effect? .ret w m.storage = some (.ofMachine (Operation.ret.effect w m)) := by
  by_cases hdepth : m.calls.depth.val = 0
  · have hpop : m.calls.pop? = none := (CallStack.pop?_eq_none_iff _).2 hdepth
    have hpointer : m.storage.stackPointer = 0 := hdepth
    simp only [effect?, Operation.effect, hpop, hpointer, if_true]
    rfl
  · have hpointer : ¬m.storage.stackPointer = 0 := hdepth
    -- the slot below the stack pointer is one of the sixteen
    have htop : difference m.storage.stackPointer 1 = some (m.calls.depth.val - 1) :=
      difference_of_le (by omega)
    have hslot : m.storage.stack[m.calls.depth.val - 1]? =
        some (m.calls.slots[m.calls.depth.val - 1]) :=
      Vector.getElem?_eq_getElem _
    simp only [effect?, Operation.effect, CallStack.pop?, hdepth, hpointer, htop, hslot, if_false,
      Option.bind_eq_bind, Option.bind_some]
    rfl

/-- A call never puts an address past the stack: with a full stack it fails as the machine does. -/
theorem call?_storage :
    effect? .call w m.storage = some (.ofMachine (Operation.call.effect w m)) := by
  by_cases hdepth : m.calls.depth.val < 16
  · have hpointer : ¬16 ≤ m.storage.stackPointer := Nat.not_le.2 hdepth
    -- a free slot at the stack pointer
    have hslots : put m.storage.stack m.storage.stackPointer (m.storage.pc + Opcode.size) =
        some (m.calls.slots.set m.calls.depth (m.pc + Opcode.size) hdepth) :=
      put_of_lt _ hdepth _
    have hsum : unsigned 64 (m.storage.stackPointer + 1) = some (m.calls.depth.val + 1) :=
      unsigned_of_lt (show m.calls.depth.val + 1 < _ by omega)
    simp only [effect?, Operation.effect, CallStack.push?, hdepth, hpointer, hslots, hsum, if_false,
      dif_pos, Option.bind_eq_bind, Option.bind_some]
    rfl
  · have hfull : m.calls.depth.val = 16 := by omega
    have hpush : m.calls.push? m.pass.pc = none := (CallStack.push?_eq_none_iff _ _).2 hfull
    have hpointer : 16 ≤ m.storage.stackPointer := Nat.not_lt.1 hdepth
    simp only [effect?, Operation.effect, hpush, hpointer, if_true]
    rfl

/-! ## Block transfers -/

/-- The number of registers to transfer is at most sixteen, and fits in its word. -/
theorem count?_eq : unsigned 64 (xNumber w + 1) = some (w.x.val + 1) := by
  rw [xNumber_eq]
  exact unsigned_of_lt (by omega)

section Runs

variable {count : ℕ}

/-- The places from the index register on, as addresses. -/
theorem ofNat_eq_index_add {i : ℕ} (h : m.index.toNat ≤ i) :
    UInt16.ofNat i = m.index + UInt16.ofNat (i - m.index.toNat) := by
  have hsum : i = m.index.toNat + (i - m.index.toNat) := by omega
  rw [hsum, UInt16.ofNat_add, UInt16.ofNat_toNat, Nat.add_sub_cancel_left]

/-- In the indexed mode a load accesses bytes and registers of the same numbers. -/
theorem bringIndexed?_storage (h : m.index.toNat + count ≤ 16) :
    m.storage.bring? (List.range' m.index.toNat count) UInt16.ofNat =
      some (m.bringRun m.index.toNat count).storage :=
  bring?_storage m h fun _ => ofNat_eq_index_add m

/-- In the indexed mode a store accesses bytes and registers of the same numbers. -/
theorem takeIndexed?_storage (h : m.index.toNat + count ≤ 16) :
    m.storage.take? (List.range' m.index.toNat count) UInt16.ofNat =
      some (m.takeRun m.index.toNat count).storage :=
  take?_storage m h fun _ => ofNat_eq_index_add m

/-- In the standard mode a load accesses the first registers. -/
theorem bringFirst?_storage (h : count ≤ 16) :
    m.storage.bring? (List.range' 0 count) (fun i => m.storage.index + UInt16.ofNat i) =
      some (m.bringRun 0 count).storage :=
  bring?_storage m (by rwa [Nat.zero_add]) fun _ _ => rfl

/-- In the standard mode a store accesses the first registers. -/
theorem takeFirst?_storage (h : count ≤ 16) :
    m.storage.take? (List.range' 0 count) (fun i => m.storage.index + UInt16.ofNat i) =
      some (m.takeRun 0 count).storage :=
  take?_storage m (by rwa [Nat.zero_add]) fun _ _ => rfl

end Runs

/-- A transfer of the indexed mode is refused as the machine refuses it, and moves its run only where
the window fits. -/
theorem transferIndexed?_storage {count : ℕ} (hcount : count ≤ 16)
    {move? : List ℕ → (ℕ → UInt16) → Option Storage} {move : Machine → ℕ → ℕ → Machine}
    (hmove : m.index.toNat + count ≤ 16 → move? (List.range' m.index.toNat count) UInt16.ofNat =
      some (move m m.index.toNat count).storage) :
    m.storage.transferIndexed? count move? = some (.ofMachine (m.transferIndexed count move)) := by
  have hindex := m.index.toNat_lt
  have hsum : unsigned 64 (m.storage.index.toNat + count) = some (m.index.toNat + count) :=
    unsigned_of_lt (show m.index.toNat + count < _ by omega)
  rw [transferIndexed?, hsum, Option.bind_eq_bind, Option.bind_some]
  by_cases hlong : 16 < m.index.toNat + count
  · rw [if_pos hlong, Machine.transferIndexed_of_overrun move hlong]
    rfl
  · rw [if_neg hlong, Machine.transferIndexed_of_fits move hlong]
    exact congrArg (Option.bind · _) (hmove (Nat.le_of_not_lt hlong))

/-! ## Sprites and their addresses -/

/-- A draw folds every coordinate onto the plane. -/
theorem sprite?_storage :
    effect? .draw w m.storage = some (.ofMachine (Operation.draw.effect w m)) := by
  -- an instruction draws at most fifteen rows
  have hrows : (m.memory.slice m.index w.n).length ≤ 2 ^ 62 := by
    rw [Memory.length_slice]
    omega
  have hdraw : draw? m.storage.display _ _ _ = some _ :=
    draw?_eq m.display hrows (m.registers.get w.x) (m.registers.get w.y)
  generalize hdrawn : m.display.draw (m.memory.slice m.index w.n) (m.registers.get w.x)
    (m.registers.get w.y) = drawn at hdraw
  have hslice : m.storage.slice? m.storage.index (nNumber w) = some (m.memory.slice m.index w.n) := by
    rw [nNumber_eq]
    exact slice?_storage m m.index w.n
  have hflag := assignFlag?_storage { m with display := drawn.2 } drawn.1
  simp only [effect?, hslice, vx?_storage, vy?_storage, hdraw, Option.bind_eq_bind,
    Option.bind_some, Operation.effect, Machine.drawSprite, hdrawn]
  exact hflag

/-- The sum with the index register is made in a word where it fits. -/
theorem addIndex?_storage :
    effect? .addIndex w m.storage = some (.ofMachine (Operation.addIndex.effect w m)) := by
  have hsum : unsigned 32 (m.storage.index.toNat + (m.registers.get w.x).toNat) =
      some (m.index.toNat + (m.registers.get w.x).toNat) := by
    have hindex := m.index.toNat_lt
    have hvx := (m.registers.get w.x).toNat_lt
    exact unsigned_of_lt (show m.index.toNat + _ < _ by omega)
  simp only [effect?, vx?_storage, hsum, Option.bind_eq_bind, Option.bind_some]
  exact assignFlag?_storage { m with index := _ } _

/-- The address of a glyph fits in its word, for any byte. -/
theorem glyph?_storage :
    effect? .glyph w m.storage = some (.ofMachine (Operation.glyph.effect w m)) := by
  have hrows : Font.glyphRows = 5 := rfl
  have hproduct : unsigned 16 ((m.registers.get w.x).toNat * Font.glyphRows) =
      some ((m.registers.get w.x).toNat * Font.glyphRows) := by
    have hvx := (m.registers.get w.x).toNat_lt
    rw [hrows]
    exact unsigned_of_lt (by omega)
  have haddress : UInt16.ofNat ((m.registers.get w.x).toNat * Font.glyphRows) =
      Font.glyphAddress (m.registers.get w.x) := by
    rw [UInt16.ofNat_mul, UInt16.ofNat_uInt8ToNat]
    rfl
  simp only [effect?, vx?_storage, hproduct, Option.bind_eq_bind, Option.bind_some, haddress]
  rfl

/-! ## All operations -/

/-- On the storage of a machine no check fails, and what comes of it is the effect of the operation. -/
theorem effect?_storage (operation : Operation) :
    effect? operation w m.storage = some (.ofMachine (operation.effect w m)) := by
  cases operation with
  | clear | routine | jump | setIndex => rfl
  | ret => exact ret?_storage m w
  | call => exact call?_storage m w
  | skipIfByte | skipUnlessByte | skipIfSame | skipUnlessSame | skipIfKey | skipUnlessKey =>
    simp only [effect?, vx?_storage, vy?_storage, isDown?_storage, Option.bind_eq_bind,
      Option.bind_some, passNextIf_storage]
    rfl
  | setByte | addByte | copy | or | and | xor | getDelay =>
    simp only [effect?, vx?_storage, vy?_storage, assign?_storage, Option.bind_eq_bind,
      Option.bind_some]
    rfl
  | add | subtract | shiftRight | subtractFrom | shiftLeft =>
    simp only [effect?, vx?_storage, vy?_storage, assignResult?_storage, Option.bind_eq_bind,
      Option.bind_some]
    rfl
  | setDelay | setSound =>
    simp only [effect?, vx?_storage, Option.bind_eq_bind, Option.bind_some]
    rfl
  | awaitKey =>
    simp only [effect?, xNumber_eq]
    rfl
  | jumpOffset =>
    have hfirst : m.storage.register? 0 = some (m.registers.get RegisterFile.first) :=
      register?_storage m RegisterFile.first
    simp only [effect?, hfirst, Option.bind_eq_bind, Option.bind_some]
    rfl
  | random => exact assign?_storage { m with random := m.random.next.2 } w _
  | draw => exact sprite?_storage m w
  | addIndex => exact addIndex?_storage m w
  | glyph => exact glyph?_storage m w
  | digits =>
    -- the third address is given as a sum of two here and as a next address there
    have hthird : m.storage.index + 2 = m.storage.index + 1 + 1 := by
      rw [UInt16.add_assoc]
      rfl
    simp only [effect?, vx?_storage, write?_storage, hthird, Option.bind_eq_bind, Option.bind_some]
    rfl
  | storeRun =>
    have hmode : m.storage.transfer = m.transfer := rfl
    rw [effect?, count?_eq, Option.bind_eq_bind, Option.bind_some, Operation.effect, hmode]
    cases m.transfer with
    | indexed => exact transferIndexed?_storage m w.x.isLt (bringIndexed?_storage m)
    | standard => exact congrArg (Option.bind · _) (takeFirst?_storage m w.x.isLt)
  | loadRun =>
    have hmode : m.storage.transfer = m.transfer := rfl
    rw [effect?, count?_eq, Option.bind_eq_bind, Option.bind_some, Operation.effect, hmode]
    cases m.transfer with
    | indexed => exact transferIndexed?_storage m w.x.isLt (takeIndexed?_storage m)
    | standard => exact congrArg (Option.bind · _) (bringFirst?_storage m w.x.isLt)

end Effect

/-! ## Carrying out an operation, and a cycle -/

/-- Carries out an operation by the row that the standard table has for it. -/
def execute? (operation : Operation) (w : Opcode) (s : Storage) : Option (Attempt Status) :=
  match DecodingTable.standard.rowOf? operation with
  | none => return .failed (.unknownOpcode w s.pc) s
  | some row => do
    let attempt ← effect? row.operation w s
    return ⟨attempt.result.map fun _ => operation.status, attempt.storage⟩

/-- One instruction; nothing while a key is awaited. -/
def cycle? (s : Storage) : Option (Attempt Status) :=
  if s.waiting then
    return ⟨.ok .waiting, s⟩
  else do
    let w ← s.fetch?
    match DecodingTable.standard.decode? w with
    | none => return .failed (.unknownOpcode w s.pc) s
    | some operation => execute? operation w s

/-- To carry out an operation on the storage of a machine fails no check. -/
theorem execute?_storage (m : Machine) (operation : Operation) (w : Opcode) :
    execute? operation w m.storage = some (.ofMachine (m.execute operation w)) := by
  rw [execute?, Machine.execute, Machine.executeWith]
  cases DecodingTable.standard.rowOf? operation with
  | none => rfl
  | some row =>
    dsimp only
    rw [effect?_storage]
    rfl

/-- A cycle on the storage of a machine fails no check. -/
theorem cycle?_storage (m : Machine) : m.storage.cycle? = some (.ofMachine m.cycle) := by
  have hwaiting : m.storage.waiting = m.waiting := rfl
  rw [cycle?, hwaiting]
  cases hwait : m.waiting with
  | true =>
    rw [Machine.cycle_of_waiting hwait]
    rfl
  | false =>
    rw [if_neg Bool.false_ne_true, fetch?_storage, Option.bind_eq_bind, Option.bind_some]
    cases hdecode : DecodingTable.standard.decode? m.fetch with
    | none =>
      rw [Machine.cycle_of_unknown hwait hdecode]
      rfl
    | some operation =>
      rw [Machine.cycle_of_decode hwait hdecode]
      exact execute?_storage m operation m.fetch

end Storage

end Chip8
