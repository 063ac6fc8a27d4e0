import Chip8.Proofs.Machine.Frame

/-!
# Refused instructions

An operation is refused for one of three reasons, and each can be read off the machine before
anything happens: a return with no call outstanding, a call with all slots taken, and an indexed
block transfer that leaves the register file. `refusal?` computes the reason.

* `effect_of_refusal` and `result_effect_of_none`: operations fail just when `refusal?` has a reason,
  with that reason and with the machine as it was.
* `refusal?_eq_some_iff`: the three reasons, spelt out.
* `exists_push?_of_unrefused`, `exists_pop?_of_unrefused`, `fits_of_unrefused`: what it takes not to be
  refused.
* `cycle_error_iff`: a cycle fails for the same reasons, or because no row covers the opcode fetched.
* `refused_exactly_without_trace`: all of this together, for every machine.
-/

namespace Chip8

namespace Machine

/-- Why a machine refuses an operation with the operands of an opcode, if it does. -/
def refusal? (m : Machine) (operation : Operation) (w : Opcode) : Option Fault :=
  match operation with
  | .ret => if m.calls.depth.val = 0 then some (.callStackEmpty m.pc) else none
  | .call => if m.calls.depth.val = 16 then some (.callStackFull m.pc) else none
  | .storeRun | .loadRun =>
    if m.transfer = .indexed ∧ 16 < m.index.toNat + (w.x + 1) then
      some (.windowOverrun m.index (w.x + 1))
    else
      none
  | _ => none

/-- The reasons spelt out: which operation, in which state, as what fault. -/
theorem refusal?_eq_some_iff (m : Machine) (operation : Operation) (w : Opcode) (fault : Fault) :
    m.refusal? operation w = some fault ↔
      (operation = .ret ∧ m.calls.depth.val = 0 ∧ fault = .callStackEmpty m.pc) ∨
      (operation = .call ∧ m.calls.depth.val = 16 ∧ fault = .callStackFull m.pc) ∨
      ((operation = .storeRun ∨ operation = .loadRun) ∧ m.transfer = .indexed ∧
        16 < m.index.toNat + w.x + 1 ∧ fault = .windowOverrun m.index (w.x + 1)) := by
  cases operation <;>
    simp only [refusal?, Option.ite_none_right_eq_some, Option.some.injEq, reduceCtorEq, false_and,
      true_and, false_or, or_false, or_true, and_assoc, Nat.add_assoc, @eq_comm _ fault]

section Unrefused

variable {m : Machine} {w : Opcode}

/-- A call that there is no reason to refuse finds a slot. -/
theorem exists_push?_of_unrefused (h : m.refusal? .call w = none) (address : UInt16) :
    ∃ calls, m.calls.push? address = some calls := by
  refine Option.ne_none_iff_exists'.1 fun hfull => ?_
  rw [refusal?, if_pos ((CallStack.push?_eq_none_iff _ _).1 hfull)] at h
  cases h

/-- A return that there is no reason to refuse finds an address. -/
theorem exists_pop?_of_unrefused (h : m.refusal? .ret w = none) :
    ∃ top, m.calls.pop? = some top := by
  refine Option.ne_none_iff_exists'.1 fun hempty => ?_
  rw [refusal?, if_pos ((CallStack.pop?_eq_none_iff _).1 hempty)] at h
  cases h

/-- An indexed block transfer that there is no reason to refuse lies within the register file. -/
theorem fits_of_unrefused {operation : Operation}
    (hrun : operation = .storeRun ∨ operation = .loadRun) (hmode : m.transfer = .indexed)
    (h : m.refusal? operation w = none) : ¬16 < m.index.toNat + (w.x + 1) := by
  intro hlong
  rcases hrun with rfl | rfl
  · rw [refusal?, if_pos ⟨hmode, hlong⟩] at h
    cases h
  · rw [refusal?, if_pos ⟨hmode, hlong⟩] at h
    cases h

end Unrefused

/-! ## Operations -/

/-- An operation for which there is a reason fails with it, and nothing else comes of it. -/
theorem effect_of_refusal {m : Machine} {operation : Operation} {w : Opcode} {fault : Fault}
    (h : m.refusal? operation w = some fault) : operation.effect w m = .failed fault m := by
  rw [refusal?_eq_some_iff] at h
  rcases h with ⟨rfl, hdepth, rfl⟩ | ⟨rfl, hdepth, rfl⟩ | ⟨hrun, hmode, hlong, rfl⟩
  · have hpop : m.calls.pop? = none := (CallStack.pop?_eq_none_iff _).2 hdepth
    simp only [Operation.effect, hpop]
  · have hpush : m.calls.push? m.pass.pc = none := (CallStack.push?_eq_none_iff _ _).2 hdepth
    simp only [Operation.effect, hpush]
  · rcases hrun with rfl | rfl
    · simp only [Operation.effect, hmode]
      exact transferIndexed_of_overrun _ hlong
    · simp only [Operation.effect, hmode]
      exact transferIndexed_of_overrun _ hlong

/-- An operation for which there is no reason to refuse it succeeds. -/
theorem result_effect_of_none {m : Machine} {operation : Operation} {w : Opcode}
    (h : m.refusal? operation w = none) : (operation.effect w m).result = .ok () := by
  cases operation with
  | ret =>
    obtain ⟨top, hpop⟩ := exists_pop?_of_unrefused h
    simp only [Operation.effect, hpop, Attempt.done]
  | call =>
    obtain ⟨calls, hpush⟩ := exists_push?_of_unrefused h m.pass.pc
    simp only [Operation.effect, hpush, Attempt.done]
  | storeRun | loadRun =>
    cases hmode : m.transfer with
    | standard => simp only [Operation.effect, hmode, Attempt.done]
    | indexed =>
      have hfits := fits_of_unrefused (by decide) hmode h
      simp only [Operation.effect, hmode]
      rw [transferIndexed_of_fits _ hfits, Attempt.done]
  | _ => rfl

/-! ## Carrying out an operation -/

/-- An operation is carried out unless there is a reason to refuse it. -/
theorem result_execute (m : Machine) (operation : Operation) (w : Opcode) :
    (m.execute operation w).result =
      (m.refusal? operation w).elim (.ok operation.status) .error := by
  rw [execute_eq]
  cases h : m.refusal? operation w with
  | none => simp only [result_effect_of_none h, Except.map, Option.elim]
  | some fault => simp only [effect_of_refusal h, Attempt.failed, Except.map, Option.elim]

/-- An operation fails just for the reason there is to refuse it. -/
theorem execute_error_iff (m : Machine) (operation : Operation) (w : Opcode) (fault : Fault) :
    (m.execute operation w).result = .error fault ↔ m.refusal? operation w = some fault := by
  rw [result_execute]
  cases m.refusal? operation w with
  | none => simp only [Option.elim, reduceCtorEq]
  | some reason => simp only [Option.elim, Except.error.injEq, Option.some.injEq]

/-- What is carried out there was no reason to refuse. -/
theorem refusal?_eq_none_of_ok {m : Machine} {operation : Operation} {w : Opcode} {status : Status}
    (h : (m.execute operation w).result = .ok status) : m.refusal? operation w = none := by
  refine Option.eq_none_iff_forall_ne_some.2 fun fault hfault => ?_
  rw [(execute_error_iff m operation w fault).2 hfault] at h
  cases h

/-- A refused operation leaves the machine as it was. -/
theorem machine_execute_of_error {m : Machine} {operation : Operation} {w : Opcode} {fault : Fault}
    (h : (m.execute operation w).result = .error fault) : (m.execute operation w).machine = m := by
  rw [machine_execute, effect_of_refusal ((execute_error_iff m operation w fault).1 h)]
  rfl

/-! ## Cycles -/

/-- A cycle fails if no key is awaited and the opcode fetched either stands for nothing or for an
operation that is refused. -/
theorem cycle_error_iff (m : Machine) (fault : Fault) :
    m.cycle.result = .error fault ↔
      m.waiting = false ∧
        ((DecodingTable.standard.decode? m.fetch = none ∧ fault = .unknownOpcode m.fetch m.pc) ∨
          ∃ operation, DecodingTable.standard.decode? m.fetch = some operation ∧
            (m.execute operation m.fetch).result = .error fault) := by
  cases hwait : m.waiting with
  | true => simp only [cycle_of_waiting hwait, reduceCtorEq, false_and]
  | false =>
    cases hdecode : DecodingTable.standard.decode? m.fetch with
    | none =>
      rw [cycle_of_unknown hwait hdecode]
      simp only [Attempt.failed, Except.error.injEq, reduceCtorEq, false_and, exists_false, or_false,
        true_and, eq_comm]
    | some operation =>
      rw [cycle_of_decode hwait hdecode]
      simp only [reduceCtorEq, false_and, false_or, true_and, Option.some.injEq, exists_eq_left']

/-- A cycle that fails leaves the machine as it was. -/
theorem machine_cycle_of_error {m : Machine} {fault : Fault} (h : m.cycle.result = .error fault) :
    m.cycle.machine = m := by
  obtain ⟨hwait, ⟨hdecode, -⟩ | ⟨operation, hdecode, herror⟩⟩ := (cycle_error_iff m fault).1 h
  · rw [cycle_of_unknown hwait hdecode, Attempt.failed]
  · rw [cycle_of_decode hwait hdecode]
    exact machine_execute_of_error herror

/-- A cycle fails recoverably just when the opcode fetched stands for nothing. -/
theorem isRecoverable_iff_of_cycle_error {m : Machine} {fault : Fault}
    (h : m.cycle.result = .error fault) :
    fault.isRecoverable = true ↔ DecodingTable.standard.decode? m.fetch = none := by
  obtain ⟨-, ⟨hdecode, rfl⟩ | ⟨operation, hdecode, herror⟩⟩ := (cycle_error_iff m fault).1 h
  · simp [Fault.isRecoverable, hdecode]
  · rw [execute_error_iff, refusal?_eq_some_iff] at herror
    rcases herror with ⟨-, -, rfl⟩ | ⟨-, -, rfl⟩ | ⟨-, -, -, rfl⟩ <;>
      simp [Fault.isRecoverable, hdecode]

/-! ## All reasons, and no trace -/

/-- **Exact faults, and no trace of them.** An operation, with whatever opcode for its operands,
fails in the three situations only and with their faults; a cycle fails when no key is awaited and
the opcode fetched is covered by no row or stands for an operation that fails. What fails leaves the
whole machine as it was, so that trying again fails again in the same way. -/
theorem refused_exactly_without_trace (m : Machine) :
    (∀ operation w fault, (m.execute operation w).result = .error fault ↔
      (operation = .ret ∧ m.calls.depth.val = 0 ∧ fault = .callStackEmpty m.pc) ∨
      (operation = .call ∧ m.calls.depth.val = 16 ∧ fault = .callStackFull m.pc) ∨
      ((operation = .storeRun ∨ operation = .loadRun) ∧ m.transfer = .indexed ∧
        16 < m.index.toNat + w.x + 1 ∧ fault = .windowOverrun m.index (w.x + 1))) ∧
    (∀ fault, m.cycle.result = .error fault ↔
      m.waiting = false ∧
        ((DecodingTable.standard.decode? m.fetch = none ∧ fault = .unknownOpcode m.fetch m.pc) ∨
          ∃ operation, DecodingTable.standard.decode? m.fetch = some operation ∧
            (m.execute operation m.fetch).result = .error fault)) ∧
    (∀ operation w fault, (m.execute operation w).result = .error fault →
      (m.execute operation w).machine = m ∧
        ((m.execute operation w).machine.execute operation w).result = .error fault) ∧
    (∀ fault, m.cycle.result = .error fault →
      m.cycle.machine = m ∧ m.cycle.machine.cycle.result = .error fault) := by
  refine ⟨?_, cycle_error_iff m, ?_, ?_⟩
  · intro operation w fault
    rw [execute_error_iff, refusal?_eq_some_iff]
  · intro operation w fault h
    have hmachine : (m.execute operation w).machine = m := machine_execute_of_error h
    exact ⟨hmachine, hmachine.symm ▸ h⟩
  · intro fault h
    have hmachine : m.cycle.machine = m := machine_cycle_of_error h
    exact ⟨hmachine, hmachine.symm ▸ h⟩

end Machine

end Chip8
