import Chip8.Proofs.Machine.Frame

/-!
# Alterations

Timers, keypad and transfer mode are the business of a few operations each. An `Alteration` changes
these parts of a machine and no other. An operation that is about none of the parts that change, or
finds in them what it would have found anyway, does not notice it (`Alteration.Unnoticed`): it comes to
the same whether the machine is altered before the operation or after it.

* `effect_alter`, `execute_alter`: this of an operation, and of carrying it out.
* `cycle_alter`: this of a cycle, whether it carries out something or not.
-/

namespace Chip8

/-- A change to the parts of a machine that few operations are about. -/
structure Alteration where
  delay : UInt8 → UInt8 := id
  sound : UInt8 → UInt8 := id
  keypad : Keypad → Keypad := id
  transfer : TransferMode → TransferMode := id

/-- The machine after an alteration. -/
def Machine.alter (m : Machine) (a : Alteration) : Machine :=
  { m with
    delay := a.delay m.delay
    sound := a.sound m.sound
    keypad := a.keypad m.keypad
    transfer := a.transfer m.transfer }

/-- An operation does not notice an alteration: what it reads is not changed by it, and neither is what
it writes. -/
def Alteration.Unnoticed (a : Alteration) (m : Machine) (w : Opcode) : Operation → Prop
  | .getDelay => a.delay m.delay = m.delay
  | .setDelay => a.delay (m.registers.get w.x) = m.registers.get w.x
  | .setSound => a.sound (m.registers.get w.x) = m.registers.get w.x
  | .skipIfKey | .skipUnlessKey =>
    (a.keypad m.keypad).isDown (Key.ofCode (m.registers.get w.x)) =
      m.keypad.isDown (Key.ofCode (m.registers.get w.x))
  | .storeRun | .loadRun => a.transfer m.transfer = m.transfer
  | _ => True

namespace Machine

variable {m : Machine} {w : Opcode} {operation : Operation} {a : Alteration}

/-- To go on to the next instruction looks at none of the parts that change. -/
theorem pass_alter (m : Machine) (a : Alteration) : (m.alter a).pass = m.pass.alter a := rfl

/-! The runs that block transfers move. The memory stays closed: to compare both sides by computation
would unfold its bytes. -/

/-- Neither does a run from memory to the registers. -/
theorem bringRun_alter (base count : Nat) :
    (m.alter a).bringRun base count = (m.bringRun base count).alter a := by
  simp only [bringRun, alter]

/-- Neither does a run from the registers to memory. -/
theorem takeRun_alter (base count : Nat) :
    (m.alter a).takeRun base count = (m.takeRun base count).alter a := by
  simp only [takeRun, alter]

/-- Neither does a transfer of the indexed mode, whichever way it goes. -/
theorem transferIndexed_alter (count : Nat) {move : Machine → Nat → Nat → Machine}
    (hmove : ∀ base, move (m.alter a) base count = (move m base count).alter a) :
    (m.alter a).transferIndexed count move =
      { m.transferIndexed count move with
        machine := (m.transferIndexed count move).machine.alter a } := by
  have hindex : (m.alter a).index = m.index := rfl
  by_cases hlong : 16 < m.index.toNat + count
  · rw [transferIndexed_of_overrun move hlong, transferIndexed_of_overrun move (hindex ▸ hlong)]
    rfl
  · rw [transferIndexed_of_fits move hlong, transferIndexed_of_fits move (hindex ▸ hlong), hmove]
    rfl

/-- **One operation.** What does not notice an alteration can be done before it or after it. -/
theorem effect_alter (h : a.Unnoticed m w operation) :
    operation.effect w (m.alter a) =
      { operation.effect w m with machine := (operation.effect w m).machine.alter a } := by
  have hcalls : (m.alter a).calls = m.calls := rfl
  cases operation with
  | getDelay =>
    have hdelay : (m.alter a).delay = m.delay := h
    simp only [Operation.effect, hdelay]
    rfl
  | setDelay =>
    have hdelay : a.delay (m.registers.get w.x) = m.registers.get w.x := h
    simp only [Operation.effect, alter, pass, Attempt.done, hdelay]
  | setSound =>
    have hsound : a.sound (m.registers.get w.x) = m.registers.get w.x := h
    simp only [Operation.effect, alter, pass, Attempt.done, hsound]
  | skipIfKey | skipUnlessKey =>
    have hdown : (m.alter a).keypad.isDown (Key.ofCode ((m.alter a).registers.get w.x)) =
        m.keypad.isDown (Key.ofCode (m.registers.get w.x)) := h
    simp only [Operation.effect, passNextIf_eq, hdown]
    rfl
  | skipIfByte | skipUnlessByte | skipIfSame | skipUnlessSame =>
    simp only [Operation.effect, passNextIf_eq]
    rfl
  -- calls, returns and transfers branch on parts that are as before: with the branch chosen, both sides
  -- compute to the same
  | call =>
    have hpc : (m.alter a).pass.pc = m.pass.pc := rfl
    simp only [Operation.effect, hcalls, hpc]
    cases m.calls.push? m.pass.pc <;> rfl
  | ret =>
    simp only [Operation.effect, hcalls]
    cases m.calls.pop? <;> rfl
  | storeRun =>
    have htransfer : (m.alter a).transfer = m.transfer := h
    simp only [Operation.effect, htransfer]
    cases m.transfer with
    | indexed => exact transferIndexed_alter _ fun base => bringRun_alter base _
    | standard => simp only [takeRun_alter, pass_alter, Attempt.done]
  | loadRun =>
    have htransfer : (m.alter a).transfer = m.transfer := h
    simp only [Operation.effect, htransfer]
    cases m.transfer with
    | indexed => exact transferIndexed_alter _ fun base => takeRun_alter base _
    | standard => simp only [bringRun_alter, pass_alter, Attempt.done]
  | _ => rfl

/-- To carry out an operation that does not notice comes to the same on both sides, the log included. -/
theorem execute_alter (h : a.Unnoticed m w operation) :
    (m.alter a).execute operation w =
      { m.execute operation w with machine := (m.execute operation w).machine.alter a } := by
  rw [execute_eq, execute_eq, effect_alter h]
  rfl

/-- **One cycle.** A cycle can be done before an alteration or after it, unless it comes to an operation
that notices. -/
theorem cycle_alter
    (h : m.waiting = false → ∀ operation ∈ DecodingTable.standard.decode? m.fetch,
      a.Unnoticed m m.fetch operation) :
    (m.alter a).cycle = { m.cycle with machine := m.cycle.machine.alter a } := by
  have hfetch : (m.alter a).fetch = m.fetch := rfl
  have hwaiting : (m.alter a).waiting = m.waiting := rfl
  cases hwait : m.waiting with
  | true => rw [cycle_of_waiting hwait, cycle_of_waiting (hwaiting.trans hwait)]
  | false =>
    cases hdecode : DecodingTable.standard.decode? m.fetch with
    | none =>
      rw [cycle_of_unknown hwait hdecode, cycle_of_unknown (hwaiting.trans hwait) hdecode]
      rfl
    | some operation =>
      rw [cycle_of_decode hwait hdecode, cycle_of_decode (hwaiting.trans hwait) hdecode, hfetch]
      exact execute_alter (h hwait operation hdecode)

end Machine

end Chip8
