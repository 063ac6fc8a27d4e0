import Chip8.Proofs.Log.Wording
import Chip8.Proofs.Machine.Frame

/-!
# What instructions log

An instruction is logged when a cycle sets out to carry it out (`dispatch?`). Two operations log
something themselves (`log_effect`), of which only the beginning of a wait counts for the course of a
run (`aside_effect`).
-/

namespace Chip8

open Log

namespace Machine

/-- The instruction that a cycle sets out to carry out: where it is, its opcode and its operation. -/
def dispatch? (m : Machine) : Option (UInt16 × Opcode × Operation) :=
  if m.waiting then none
  else (DecodingTable.standard.decode? m.fetch).map fun operation => (m.pc, m.fetch, operation)

/-- Two operations log something themselves. -/
theorem log_effect (operation : Operation) (w : Opcode) (m : Machine) :
    (operation.effect w m).log =
      match operation with
      | .routine => [.routineIgnored w.nnn]
      | .awaitKey => [.awaitingKey w.x]
      | _ => [] := by
  have hindexed (count : ℕ) (move : Machine → ℕ → ℕ → Machine) :
      (m.transferIndexed count move).log = [] := by
    rw [transferIndexed]
    split <;> rfl
  cases operation with
  | ret =>
    simp only [Operation.effect]
    cases m.calls.pop? <;> rfl
  | call =>
    simp only [Operation.effect]
    cases m.calls.push? m.pass.pc <;> rfl
  | storeRun | loadRun =>
    simp only [Operation.effect]
    cases m.transfer with
    | indexed => exact hindexed _ _
    | standard => rfl
  | _ => rfl

/-- Nothing is logged that tells of the course of a run, but for a wait if one begins. -/
structure Aside (log : List Event) (waiting : Bool) : Prop where
  traces : log.filterMap Event.dispatch? = []
  skips : log.countP Event.isSkip = 0
  waits : log.countP Event.isWait = log.countP Event.isDelivery + waiting.toNat
  halts : ∀ event ∈ log, event.halt? = none

/-- An operation logs itself that a wait begins, if one does, and nothing else that counts. -/
theorem aside_effect {m : Machine} (hwait : m.waiting = false) (operation : Operation) (w : Opcode) :
    Aside (operation.effect w m).log (operation.effect w m).machine.waiting := by
  by_cases hkey : operation = .awaitKey
  · rw [hkey, log_effect]
    exact ⟨rfl, rfl, rfl, by simp [Event.halt?]⟩
  · rw [(footprint_effect operation w m).waiting hkey, hwait, log_effect]
    cases operation with
    | awaitKey => exact absurd rfl hkey
    | routine => exact ⟨rfl, rfl, rfl, by simp [Event.halt?]⟩
    | _ => exact ⟨rfl, rfl, rfl, by simp⟩

end Machine

end Chip8
