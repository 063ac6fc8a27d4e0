import Chip8.Proofs.Machine.Alteration
import Chip8.Proofs.Machine.Run

/-!
# The transfer mode

The transfer mode of a machine says what the two block transfers do. No other operation looks at it
and none changes it, so that to run the same in another mode comes to the same, but for the mode
(`cycle_setTransfer`).
-/

namespace Chip8

/-- Whether an operation is one of the two block transfers. -/
def Operation.MovesRun (operation : Operation) : Prop :=
  operation = .storeRun ∨ operation = .loadRun

instance : DecidablePred Operation.MovesRun :=
  fun operation => inferInstanceAs (Decidable (operation = .storeRun ∨ operation = .loadRun))

namespace Machine

/-- The machine in another transfer mode. -/
def setTransfer (m : Machine) (mode : TransferMode) : Machine :=
  { m with transfer := mode }

/-- An operation that is no block transfer does not notice another mode. -/
theorem unnoticed_setTransfer {operation : Operation} (h : ¬operation.MovesRun) (w : Opcode)
    (m : Machine) (mode : TransferMode) :
    Alteration.Unnoticed { transfer := fun _ => mode } m w operation := by
  cases operation with
  | storeRun => exact absurd (.inl rfl) h
  | loadRun => exact absurd (.inr rfl) h
  | getDelay | setDelay | setSound | skipIfKey | skipUnlessKey => rfl
  | _ => trivial

/-- A cycle that comes to no block transfer is the same in every mode. -/
theorem cycle_setTransfer {m : Machine}
    (h : ∀ instruction ∈ Command.cycle.instruction? m, ¬instruction.1.MovesRun)
    (mode : TransferMode) :
    (m.setTransfer mode).cycle =
      { m.cycle with machine := m.cycle.machine.setTransfer mode } := by
  refine cycle_alter (m := m) (a := { transfer := fun _ => mode }) ?_
  intro hwait operation hdecode
  have hinstruction : Command.cycle.instruction? m = some (operation, m.fetch) := by
    simp [Command.instruction?, hwait, Option.mem_def.1 hdecode]
  exact unnoticed_setTransfer (h _ hinstruction) m.fetch m mode

/-- Key presses do not look at the mode. -/
theorem press_setTransfer (m : Machine) (mode : TransferMode) (code : UInt8) :
    (m.setTransfer mode).press code = (m.press code).setTransfer mode := by
  rw [press_eq, press_eq]
  rfl

end Machine

end Chip8
