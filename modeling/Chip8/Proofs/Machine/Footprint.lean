import Chip8.Proofs.Machine.Frame

/-!
# The footprint of an operation

What an operation can change besides memory and program counter, part by part. Most parts belong to
one or two operations, which is said in `Footprint`. The rest is here: which registers an operation
can write (`Writes`), when it moves the index register (`MovesIndex`), and which slot of the call
stack it fills. A refused operation changes nothing, so that all of it holds of those as well.

* `get_effect_of_not_writes`: the registers that stay.
* `index_effect_of_not_movesIndex`: when the index register stays.
* `slots_effect`: which slots of the call stack stay.
* `operations_keep_to_footprint`: every part, for every operation.
-/

namespace Chip8

namespace Machine

/-- Whether an operation can write to a register: to its destination, to the flag register, or to
both; a block transfer to the run that comes from memory. -/
def Writes (m : Machine) (w : Opcode) (r : RegisterIndex) : Operation → Prop
  | .setByte | .addByte | .copy | .or | .and | .xor | .random | .getDelay => r = w.x
  | .add | .subtract | .shiftRight | .subtractFrom | .shiftLeft => r = w.x ∨ r = RegisterFile.flag
  | .draw | .addIndex => r = RegisterFile.flag
  | .loadRun => m.transfer = .standard ∧ r.val ≤ w.x.val
  | .storeRun =>
    m.transfer = .indexed ∧ m.index.toNat ≤ r.val ∧ r.val ≤ m.index.toNat + w.x.val
  | _ => False

/-- Whether an operation can move the index register. -/
def MovesIndex (m : Machine) : Operation → Prop
  | .setIndex | .addIndex | .glyph => True
  | .storeRun | .loadRun => m.transfer = .indexed
  | _ => False

/-! ## Part by part -/

/-- Registers after a block transfer of the indexed mode, carried out or refused. -/
theorem registers_transferIndexed (m : Machine) (count : Nat)
    (move : Machine → Nat → Nat → Machine) :
    (m.transferIndexed count move).machine.registers =
      if 16 < m.index.toNat + count then m.registers
      else (move m m.index.toNat count).registers := by
  unfold transferIndexed
  split <;> rfl

section Effect

variable {m : Machine} {w : Opcode} {operation : Operation}

/-- A register that an operation cannot write to stays as it is. -/
theorem get_effect_of_not_writes {r : RegisterIndex} (h : ¬m.Writes w r operation) :
    (operation.effect w m).machine.registers.get r = m.registers.get r := by
  have hbranches (hbranch : operation.branches = true) :
      (operation.effect w m).machine.registers = m.registers := by
    obtain ⟨calls, pc, heffect⟩ := exists_effect_eq_of_branches hbranch w m
    rw [heffect]
  cases operation with
  | setByte | addByte | copy | or | and | xor | random | getDelay =>
    have hx : r ≠ w.x := h
    exact RegisterFile.get_set_of_ne _ hx.symm _
  | add | subtract | shiftRight | subtractFrom | shiftLeft =>
    have hneither : ¬(r = w.x ∨ r = RegisterFile.flag) := h
    obtain ⟨hx, hflag⟩ := not_or.1 hneither
    -- the flag is written over the result, so that it comes off first
    apply (RegisterFile.get_set_of_ne _ (Ne.symm hflag) _).trans
    exact RegisterFile.get_set_of_ne _ (Ne.symm hx) _
  | draw | addIndex =>
    have hflag : r ≠ RegisterFile.flag := h
    exact RegisterFile.get_set_of_ne _ hflag.symm _
  | storeRun =>
    cases hmode : m.transfer with
    | standard => simp only [Operation.effect, hmode, Attempt.done, pass, takeRun]
    | indexed =>
      simp only [Operation.effect, hmode, registers_transferIndexed, bringRun]
      split
      · rfl
      · apply RegisterFile.get_overwrite_of_outside
        rw [Memory.length_slice]
        rintro ⟨hlow, hhigh⟩
        exact h ⟨hmode, hlow, by omega⟩
  | loadRun =>
    cases hmode : m.transfer with
    | standard =>
      simp only [Operation.effect, hmode, Attempt.done, pass, bringRun]
      apply RegisterFile.get_overwrite_of_outside
      rw [Memory.length_slice]
      rintro ⟨-, hhigh⟩
      exact h ⟨hmode, by omega⟩
    | indexed => simp only [Operation.effect, hmode, registers_transferIndexed, takeRun, ite_self]
  | skipIfByte | skipUnlessByte | skipIfSame | skipUnlessSame | skipIfKey | skipUnlessKey =>
    rw [hbranches rfl]
  | call | ret => rw [hbranches rfl]
  | _ => rfl

/-- An operation that cannot move the index register leaves it as it is. -/
theorem index_effect_of_not_movesIndex (h : ¬m.MovesIndex operation) :
    (operation.effect w m).machine.index = m.index := by
  have hbranches (hbranch : operation.branches = true) :
      (operation.effect w m).machine.index = m.index := by
    obtain ⟨calls, pc, heffect⟩ := exists_effect_eq_of_branches hbranch w m
    rw [heffect]
  cases operation with
  | setIndex | addIndex | glyph => exact absurd trivial h
  | storeRun | loadRun =>
    cases hmode : m.transfer with
    | standard => simp only [Operation.effect, hmode, Attempt.done, pass, takeRun, bringRun]
    | indexed => exact absurd hmode h
  | skipIfByte | skipUnlessByte | skipIfSame | skipUnlessSame | skipIfKey | skipUnlessKey =>
    exact hbranches rfl
  | call | ret => exact hbranches rfl
  | _ => rfl

/-- The slots of the call stack stay, but for the one that a call fills. -/
theorem slots_effect {i : Fin 16} (h : ¬(operation = .call ∧ i.val = m.calls.depth.val)) :
    (operation.effect w m).machine.calls.slots.get i = m.calls.slots.get i := by
  by_cases hcall : operation = .call
  · have hi : i.val ≠ m.calls.depth.val := fun heq => h ⟨hcall, heq⟩
    rw [hcall]
    cases hpush : m.calls.push? m.pass.pc with
    | none => simp only [Operation.effect, hpush, Attempt.failed]
    | some calls =>
      simp only [Operation.effect, hpush, Attempt.done]
      exact CallStack.get_slots_of_push? hpush hi
  · by_cases hret : operation = .ret
    · rw [hret]
      cases hpop : m.calls.pop? with
      | none => simp only [Operation.effect, hpop, Attempt.failed]
      | some top =>
        simp only [Operation.effect, hpop, Attempt.done]
        rw [CallStack.slots_of_pop? hpop]
    · rw [calls_effect hcall hret]

end Effect

/-- **Operations keep to their footprint.** Whatever an operation does, with the operands of whatever
opcode and in either transfer mode, it changes no register but those that it can write to, the index
register only when it can move it, each timer, the key wait, the display and the random source only
as the one operation or the two that they belong to, of the call stack only the slot above the others
in a call and the depth in calls and returns, and the keypad and the transfer mode never. So a sum
with a byte and the logical operations leave the flag register alone unless it is their destination,
and a wait for a key writes no register. -/
theorem operations_keep_to_footprint (m : Machine) (operation : Operation) (w : Opcode) :
    let after := (m.execute operation w).machine
    (∀ r, ¬m.Writes w r operation → after.registers.get r = m.registers.get r) ∧
    (¬m.MovesIndex operation → after.index = m.index) ∧
    (operation ≠ .setDelay → after.delay = m.delay) ∧
    (operation ≠ .setSound → after.sound = m.sound) ∧
    (operation ≠ .awaitKey → after.waiting = m.waiting ∧ after.keyRegister = m.keyRegister) ∧
    (∀ i : Fin 16, ¬(operation = .call ∧ i.val = m.calls.depth.val) →
      after.calls.slots.get i = m.calls.slots.get i) ∧
    (operation ≠ .call → operation ≠ .ret → after.calls.depth = m.calls.depth) ∧
    (operation ≠ .clear → operation ≠ .draw → after.display = m.display) ∧
    (operation ≠ .random → after.random = m.random) ∧
    after.keypad = m.keypad ∧ after.transfer = m.transfer ∧
    (operation = .addByte ∨ operation = .or ∨ operation = .and ∨ operation = .xor →
      w.x ≠ RegisterFile.flag →
      after.registers.get RegisterFile.flag = m.registers.get RegisterFile.flag) ∧
    (operation = .awaitKey → after.registers = m.registers) := by
  intro after
  rw [show after = _ from machine_execute m operation w]
  have hfootprint := footprint_effect operation w m
  have hdepth (hcall : operation ≠ .call) (hret : operation ≠ .ret) :
      (operation.effect w m).machine.calls.depth = m.calls.depth := by
    rw [calls_effect hcall hret]
  refine ⟨fun r => get_effect_of_not_writes, index_effect_of_not_movesIndex, hfootprint.delay,
    hfootprint.sound, fun h => ⟨hfootprint.waiting h, hfootprint.keyRegister h⟩,
    fun i => slots_effect, hdepth, hfootprint.display, hfootprint.random, hfootprint.keypad,
    hfootprint.transfer, ?_, ?_⟩
  · intro hlogical hx
    apply get_effect_of_not_writes
    rcases hlogical with rfl | rfl | rfl | rfl <;> exact Ne.symm hx
  · rintro rfl
    apply RegisterFile.ext_get
    intro r
    exact get_effect_of_not_writes id

/-- With the index register at 3, an indexed store of two bytes writes `V3` and `V4` and not the
register after them; and a call fills the lowest slot of an empty stack and not the next one. -/
theorem store_and_call_footprint :
    let m : Machine := { fresh .indexed (.ofSeed 0) with
      memory := ⟨Vector.replicate 4096 9⟩
      registers := ⟨Vector.replicate 16 1⟩
      index := 3 }
    let stored := (m.execute .storeRun ⟨0xF155⟩).machine
    let called := (m.execute .call ⟨0x2300⟩).machine
    (m.Writes ⟨0xF155⟩ 4 .storeRun ∧ stored.registers.get 4 = 9) ∧
    (¬m.Writes ⟨0xF155⟩ 5 .storeRun ∧ stored.registers.get 5 = 1) ∧
    called.calls.slots.get 0 = 0x202 ∧ called.calls.slots.get 1 = 0 ∧ called.index = 3 := by
  intro m stored called
  have hwrites : m.Writes ⟨0xF155⟩ 4 .storeRun := by
    show m.transfer = .indexed ∧ _
    decide
  have hkept : ¬m.Writes ⟨0xF155⟩ 5 .storeRun := by
    show ¬(m.transfer = .indexed ∧ _)
    decide
  obtain ⟨hregisters, -⟩ := operations_keep_to_footprint m .storeRun ⟨0xF155⟩
  obtain ⟨-, hindex, -, -, -, hslots, -⟩ := operations_keep_to_footprint m .call ⟨0x2300⟩
  refine ⟨⟨hwrites, ?_⟩, ⟨hkept, hregisters 5 hkept⟩, ?_, hslots 1 (by decide), hindex id⟩
  · decide
  · decide

end Machine

end Chip8
