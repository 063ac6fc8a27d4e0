import Chip8.Proofs.Console.Run
import Mathlib.Logic.ExistsUnique

/-!
# What comes of a step

A console that has not stopped delivers its queue first. What comes of its step is then settled by the
machine, and by the policy where an opcode stands for nothing: `Outcome.Due` says when an outcome
is the one to come, `Outcome.leaves` and `Outcome.fault?` what it leaves behind.

* `stepped_iff_due`: of the ways that a step can go, just the one of the outcome that is due is open.
* `outcome_step_iff_due`, `console_step_eq_leaves`: the same of the function that carries out steps.
* `step_outcome_due`: there is always exactly one outcome due, and it comes.
-/

namespace Chip8

/-- The faults that a program can go on after are those of unknown opcodes. -/
theorem Fault.isRecoverable_eq_false_iff (fault : Fault) :
    fault.isRecoverable = false ↔ ∀ opcode pc, fault ≠ .unknownOpcode opcode pc := by
  cases fault with
  | unknownOpcode opcode pc => simp [isRecoverable]
  | callStackFull | callStackEmpty | windowOverrun => simp [isRecoverable]

namespace Outcome

/-- When an outcome is the one to come, for a console whose machine is `m` after the queue has been
delivered. -/
def Due (m : Machine) (policy : UnknownPolicy) : Outcome → Prop
  | awaitingKey => m.waiting = true
  | ran status => m.waiting = false ∧ m.cycle.result = .ok status
  | passedOver opcode =>
    m.waiting = false ∧ opcode = m.fetch ∧ DecodingTable.standard.decode? m.fetch = none ∧
      policy = .pass
  | stopped fault =>
    m.waiting = false ∧ m.cycle.result = .error fault ∧
      ((∀ opcode pc, fault ≠ .unknownOpcode opcode pc) ∨ policy = .stop)

/-- The machine that an outcome leaves of the one that had been given the queue. -/
def leaves (m : Machine) : Outcome → Machine
  | awaitingKey => m
  | ran _ => m.cycle.machine
  | passedOver _ => { m with pc := m.pc + 2 }
  | stopped _ => m

/-- The fault that an outcome leaves. -/
def fault? : Outcome → Option Fault
  | stopped fault => some fault
  | _ => none

/-- The only outcome that leaves a fault is to have stopped for it. -/
theorem fault?_eq_some_iff (outcome : Outcome) (fault : Fault) :
    outcome.fault? = some fault ↔ outcome = .stopped fault := by
  cases outcome <;> simp [fault?]

end Outcome

namespace Console

variable {console : Console}

/-- A fault is not recovered from if it is no unknown opcode, or if the policy is to stop at these. -/
theorem unrecovered_iff (fault : Fault) (policy : UnknownPolicy) :
    ¬(fault.isRecoverable = true ∧ policy = .pass) ↔
      (∀ opcode pc, fault ≠ .unknownOpcode opcode pc) ∨ policy = .stop := by
  rw [Classical.not_and_iff_not_or_not, Bool.not_eq_true, Fault.isRecoverable_eq_false_iff]
  cases policy <;> simp

/-- A step can go the way of the outcome that is due, and no other, and leaves what that outcome
leaves. -/
theorem stepped_iff_due (hfault : console.fault = none) (outcome : Outcome) (after : Console) :
    let m := KeyMove.deliverAll console.machine console.queue
    console.Stepped outcome after ↔
      outcome.Due m console.settings.onUnknown ∧
        after = { console with machine := outcome.leaves m, queue := [], fault := outcome.fault? } := by
  intro m
  -- all ways start from the console that has delivered its queue
  have hdeliver : console.deliver = { console with machine := m, queue := [], fault := none } := by
    rw [deliver, hfault]
  constructor
  · intro h
    cases h with
    | frozen hstopped => rw [hfault] at hstopped; cases hstopped
    | awaiting _ hwait => exact ⟨hwait, hdeliver⟩
    | ran _ hwait hresult =>
      rw [hdeliver]
      exact ⟨⟨hwait, hresult⟩, rfl⟩
    | passed _ hwait hresult hrecover =>
      have hdecode := (Machine.isRecoverable_iff_of_cycle_error hresult).1 hrecover.1
      refine ⟨⟨hwait, rfl, hdecode, hrecover.2⟩, ?_⟩
      rw [hdeliver]
      rfl
    | halted _ hwait hresult hrecover =>
      exact ⟨⟨hwait, hresult, (unrecovered_iff _ _).1 hrecover⟩, rfl⟩
  · rintro ⟨hdue, rfl⟩
    cases outcome with
    | awaitingKey =>
      have h := Stepped.awaiting hfault hdue
      rwa [hdeliver] at h
    | ran status =>
      have h := Stepped.ran hfault hdue.1 hdue.2
      rwa [hdeliver] at h
    | passedOver opcode =>
      obtain ⟨hwait, rfl, hdecode, hpass⟩ := hdue
      have hresult : m.cycle.result = .error (.unknownOpcode m.fetch m.pc) :=
        (Machine.cycle_error_iff m _).2 ⟨hwait, .inl ⟨hdecode, rfl⟩⟩
      have h := Stepped.passed hfault hwait hresult ⟨rfl, hpass⟩
      rwa [hdeliver] at h
    | stopped fault =>
      obtain ⟨hwait, hresult, hstop⟩ := hdue
      have h := Stepped.halted hfault hwait hresult ((unrecovered_iff _ _).2 hstop)
      rwa [hdeliver] at h

/-- The outcome of a step is the one that is due. -/
theorem outcome_step_iff_due (hfault : console.fault = none) (outcome : Outcome) :
    console.step.outcome = outcome ↔
      outcome.Due (KeyMove.deliverAll console.machine console.queue) console.settings.onUnknown := by
  constructor
  · rintro rfl
    exact ((stepped_iff_due hfault _ _).1 console.stepped_step).1
  · intro hdue
    exact (step_of_stepped ((stepped_iff_due hfault outcome _).2 ⟨hdue, rfl⟩)).1

/-- The console after a step is the one that the outcome leaves. -/
theorem console_step_eq_leaves (hfault : console.fault = none) :
    console.step.console =
      { console with
        machine := console.step.outcome.leaves (KeyMove.deliverAll console.machine console.queue)
        queue := []
        fault := console.step.outcome.fault? } :=
  ((stepped_iff_due hfault _ _).1 console.stepped_step).2

/-- **What comes of a step.** Take a console that has not stopped, and its machine after the queue has
been delivered. Of the outcomes exactly one is due, and it is the one that the step has: the console
awaits a key just when the machine does; it has run an instruction just when a cycle of the machine
succeeds; it has passed over the opcode fetched just when that stands for nothing and the policy says
so; and it stops on the fault of the cycle, just when that is no unknown opcode or the policy says so.
The machine is then the delivered one, the one after the cycle, the delivered one two bytes further on,
or the delivered one; the fault is set by stopping alone. A fault of the call stack or of the register
file is not passed over under any policy. -/
theorem step_outcome_due (console : Console) (hfault : console.fault = none) :
    let m := KeyMove.deliverAll console.machine console.queue
    let policy := console.settings.onUnknown
    let outcome := console.step.outcome
    (∃! due : Outcome, due.Due m policy) ∧
    (∀ due : Outcome, outcome = due ↔ due.Due m policy) ∧
    console.step.console =
      { console with machine := outcome.leaves m, queue := [], fault := outcome.fault? } ∧
    (∀ fault, console.step.console.fault = some fault ↔ outcome = .stopped fault) ∧
    ∀ fault, m.waiting = false → m.cycle.result = .error fault →
      (∀ opcode pc, fault ≠ .unknownOpcode opcode pc) → outcome = .stopped fault := by
  intro m policy outcome
  have hdue (due : Outcome) : outcome = due ↔ due.Due m policy := outcome_step_iff_due hfault due
  have hafter := console_step_eq_leaves hfault
  refine ⟨⟨outcome, (hdue outcome).1 rfl, fun other h => ((hdue other).2 h).symm⟩, hdue, hafter, ?_, ?_⟩
  · intro fault
    rw [hafter]
    exact outcome.fault?_eq_some_iff fault
  · intro fault hwait hresult hfatal
    exact (hdue _).2 ⟨hwait, hresult, .inl hfatal⟩

/-- A machine that awaits a key, and has not been given it; then given the key, at an opcode that stands
for nothing, under either policy; at one that is carried out; and at a return from no call. -/
theorem outcomes_after_awaited_key :
    let memory (high low : UInt8) : Memory :=
      (⟨Vector.replicate 4096 0⟩ : Memory).writeAll 0x200 [high, low]
    let machine (high low : UInt8) : Machine :=
      { Machine.fresh .indexed (.ofSeed 0) with memory := memory high low, waiting := true }
    let console (high low : UInt8) (policy : UnknownPolicy) (queue : List KeyMove) : Console :=
      { machine := machine high low, settings := { onUnknown := policy }, queue, fault := none }
    let pressed : List KeyMove := [.down 0x5]
    (console 0x5A 0xB1 .pass []).step.outcome = .awaitingKey ∧
    (console 0x5A 0xB1 .pass pressed).step.outcome = .passedOver ⟨0x5AB1⟩ ∧
    (console 0x5A 0xB1 .pass pressed).step.console.machine.pc = 0x202 ∧
    (console 0x5A 0xB1 .stop pressed).step.outcome = .stopped (.unknownOpcode ⟨0x5AB1⟩ 0x200) ∧
    (console 0x60 0x07 .pass pressed).step.outcome = .ran .proceed ∧
    (console 0x00 0xEE .pass pressed).step.outcome = .stopped (.callStackEmpty 0x200) := by
  intro memory machine console pressed
  have hdue (high low : UInt8) (policy : UnknownPolicy) (queue : List KeyMove) :=
    step_outcome_due (console high low policy queue) rfl
  have hpassed : (console 0x5A 0xB1 .pass pressed).step.outcome = .passedOver ⟨0x5AB1⟩ :=
    ((hdue ..).2.1 _).2 ⟨rfl, by decide +kernel, by decide +kernel, rfl⟩
  refine ⟨((hdue ..).2.1 _).2 rfl, hpassed, ?_, ?_, ?_, ?_⟩
  · rw [(hdue ..).2.2.1, hpassed]
    decide +kernel
  · refine ((hdue ..).2.1 _).2 ⟨rfl, ?_, .inr rfl⟩
    exact (Machine.cycle_error_iff _ _).2 ⟨rfl, .inl ⟨by decide +kernel, by decide +kernel⟩⟩
  · refine ((hdue ..).2.1 _).2 ⟨rfl, ?_⟩
    rw [@Machine.cycle_of_decode _ .setByte rfl (by decide +kernel), Machine.result_execute]
    rfl
  · refine (hdue ..).2.2.2.2 _ rfl ?_ (by simp)
    refine (Machine.cycle_error_iff _ _).2 ⟨rfl, .inr ⟨.ret, by decide +kernel, ?_⟩⟩
    exact (Machine.execute_error_iff ..).2 (by decide +kernel)

end Console

end Chip8
