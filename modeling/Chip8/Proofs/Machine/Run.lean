import Chip8.Machine.Command
import Chip8.Proofs.Machine.Refusal

/-!
# Runs

A run is a list of commands performed one after the other, whatever comes of each. To speak of what
a run has done, a command is assigned the instruction that it sets out to carry out
(`Command.instruction?`) and, if it is not refused, the one that it completes (`Command.completed?`);
a run is then assigned its completed instructions (`completed`).

What a command can do is said once, as a relation: `Performed` has one rule for each way a command
can go, and `performed_perform` says that every command goes one of these ways. Some parts of the
machine are touched only when an instruction is carried out (`untouched_perform`).
-/

namespace Chip8.Machine

/-- The machine after a list of commands. -/
def run (m : Machine) (commands : List Command) : Machine :=
  commands.foldl (fun m command => (m.perform command).machine) m

@[simp] theorem run_nil (m : Machine) : m.run [] = m := rfl

@[simp] theorem run_cons (m : Machine) (command : Command) (rest : List Command) :
    m.run (command :: rest) = (m.perform command).machine.run rest := rfl

theorem run_append (m : Machine) (first second : List Command) :
    m.run (first ++ second) = (m.run first).run second := by
  rw [run, List.foldl_append]
  rfl

theorem run_concat (m : Machine) (commands : List Command) (last : Command) :
    m.run (commands ++ [last]) = ((m.run commands).perform last).machine := by
  rw [run_append]
  rfl

/-- The answers to a list of commands, in order. -/
def replies (m : Machine) : List Command → List Reply
  | [] => []
  | command :: rest => (m.perform command).reply :: replies (m.perform command).machine rest

/-! ## Instructions -/

namespace Command

/-- The operation that a command sets out to carry out, and the opcode that has its operands. A cycle
sets out to carry out nothing while a key is awaited, and nothing if no row covers its opcode. -/
def instruction? (m : Machine) : Command → Option (Operation × Opcode)
  | cycle =>
    if m.waiting then none
    else (DecodingTable.standard.decode? m.fetch).map fun operation => (operation, m.fetch)
  | execute operation w => some (operation, w)
  | _ => none

/-- The instruction that a command carries out. -/
def completed? (m : Machine) (command : Command) : Option (Operation × Opcode) :=
  match (m.perform command).reply with
  | .status _ => command.instruction? m
  | _ => none

end Command

/-- The instructions that a run carries out, in order. -/
def completed (m : Machine) : List Command → List (Operation × Opcode)
  | [] => []
  | command :: rest => (command.completed? m).toList ++ completed (m.perform command).machine rest

theorem completed_append (m : Machine) (first second : List Command) :
    m.completed (first ++ second) = m.completed first ++ (m.run first).completed second := by
  induction first generalizing m with
  | nil => rfl
  | cons command rest ih =>
    rw [List.cons_append, completed, completed, ih, run_cons, List.append_assoc]

section Instruction

variable {m : Machine} {command : Command} {operation : Operation} {w : Opcode}

/-- A command with an instruction is answered as the instruction is. -/
theorem perform_of_instruction (h : command.instruction? m = some (operation, w)) :
    m.perform command = .ofInstruction (m.execute operation w) := by
  cases command with
  | cycle =>
    cases hwait : m.waiting with
    | true => simp [Command.instruction?, hwait] at h
    | false =>
      simp only [Command.instruction?, hwait, Bool.false_eq_true, if_false,
        Option.map_eq_some_iff, Prod.mk.injEq] at h
      obtain ⟨_, hdecode, rfl, rfl⟩ := h
      rw [perform, cycle_of_decode hwait hdecode]
  | execute operation' w' =>
    simp only [Command.instruction?, Option.some.injEq, Prod.mk.injEq] at h
    rw [perform, h.1, h.2]
  | _ => simp [Command.instruction?] at h

/-- The response has the machine that the attempt has left. -/
theorem machine_ofInstruction (attempt : Attempt Fault Status) :
    (Response.ofInstruction attempt).machine = attempt.machine := by
  rw [Response.ofInstruction]
  split <;> rfl

theorem machine_perform_cycle (m : Machine) : (m.perform .cycle).machine = m.cycle.machine :=
  machine_ofInstruction m.cycle

/-- A refused cycle leaves the machine as it was. -/
theorem machine_perform_cycle_of_error {m : Machine} {fault : Fault}
    (h : m.cycle.result = .error fault) : (m.perform .cycle).machine = m := by
  rw [machine_perform_cycle, machine_cycle_of_error h]

/-- A command with an instruction does what its operation does, also when it is refused. -/
theorem machine_perform_of_instruction (h : command.instruction? m = some (operation, w)) :
    (m.perform command).machine = (operation.effect w m).machine := by
  rw [perform_of_instruction h, machine_ofInstruction, machine_execute]

/-- A command is refused when its instruction is. -/
theorem reply_refused_iff (h : command.instruction? m = some (operation, w)) (fault : Fault) :
    (m.perform command).reply = .refused fault ↔ m.refusal? operation w = some fault := by
  rw [perform_of_instruction h, Response.ofInstruction, ← execute_error_iff]
  split
  · next hresult => simp only [hresult, reduceCtorEq]
  · next hresult => simp only [hresult, Reply.refused.injEq, Except.error.injEq]

/-- A command completes its instruction if there is no reason to refuse it. -/
theorem completed?_eq_some_iff :
    command.completed? m = some (operation, w) ↔
      command.instruction? m = some (operation, w) ∧ m.refusal? operation w = none := by
  constructor
  · intro h
    rw [Command.completed?] at h
    split at h
    · next status hreply =>
      refine ⟨h, Option.eq_none_iff_forall_ne_some.2 fun fault hfault => ?_⟩
      rw [(reply_refused_iff h fault).2 hfault] at hreply
      cases hreply
    · cases h
  · rintro ⟨h, hnone⟩
    have hresult : (m.execute operation w).result = .ok operation.status := by
      rw [result_execute, hnone, Option.elim]
    rw [Command.completed?, perform_of_instruction h, Response.ofInstruction, hresult]
    exact h

/-- A command that completes an instruction does what its operation does. -/
theorem machine_perform_of_completed (h : command.completed? m = some (operation, w)) :
    (m.perform command).machine = (operation.effect w m).machine :=
  machine_perform_of_instruction (completed?_eq_some_iff.1 h).1

/-- A refused command leaves the machine as it was. -/
theorem machine_perform_of_refusal {fault : Fault}
    (h : command.instruction? m = some (operation, w)) (hfault : m.refusal? operation w = some fault) :
    (m.perform command).machine = m := by
  rw [machine_perform_of_instruction h, effect_of_refusal hfault]
  rfl

/-- What sets out to carry out nothing carries out nothing. -/
theorem completed?_eq_none (h : command.instruction? m = none) : command.completed? m = none := by
  rw [Command.completed?]
  split
  · exact h
  · rfl

/-- A refused command carries out nothing. -/
theorem completed?_eq_none_of_refusal {fault : Fault}
    (h : command.instruction? m = some (operation, w)) (hfault : m.refusal? operation w = some fault) :
    command.completed? m = none := by
  rw [Command.completed?, (reply_refused_iff h fault).2 hfault]

end Instruction

/-! ## What a command can do -/

/-- Whether a command is there to carry out an instruction. -/
def Command.isInstruction : Command → Bool
  | cycle | execute _ _ => true
  | _ => false

/-- The ways in which a command can go, each with the instruction that is carried out, the reply and
the machine afterwards. -/
inductive Performed (m : Machine) :
    Command → Option (Operation × Opcode) → Reply → Machine → Prop where
  /-- An instruction is carried out. -/
  | completed {command : Command} {operation : Operation} {w : Opcode}
      (hcommand : command.isInstruction = true)
      (hinstruction : command.instruction? m = some (operation, w)) :
      Performed m command (some (operation, w)) (.status operation.status)
        (operation.effect w m).machine
  /-- An instruction is refused. -/
  | refused {command : Command} {fault : Fault} (hcommand : command.isInstruction = true) :
      Performed m command none (.refused fault) m
  /-- A key is awaited. -/
  | awaiting (hwait : m.waiting = true) : Performed m .cycle none (.status .waiting) m
  | pass : Performed m .pass none .silence m.pass
  | tick : Performed m .tick none .silence m.tick
  | press (code : UInt8) : Performed m (.press code) none .silence (m.press code)
  | release (code : UInt8) : Performed m (.release code) none .silence (m.release code)
  /-- An image becomes a program, which is put into memory. -/
  | loaded {source : ByteSource} {program : Program} (h : Program.ofSource source = .ok program) :
      Performed m (.load source) none .loaded (m.install program)
  /-- An image does not become a program. -/
  | rejected {source : ByteSource} {reason : LoadError}
      (h : Program.ofSource source = .error reason) :
      Performed m (.load source) none (.rejected reason) m
  | takeStale : Performed m .takeStale none (.stale m.takeStale.1) m.takeStale.2

/-- A command that sets out to carry out an instruction carries it out or is refused. -/
theorem performed_of_instruction {m : Machine} {command : Command} {operation : Operation}
    {w : Opcode} (hcommand : command.isInstruction = true)
    (h : command.instruction? m = some (operation, w)) :
    Performed m command (command.completed? m) (m.perform command).reply
      (m.perform command).machine := by
  cases hrefusal : m.refusal? operation w with
  | none =>
    -- whether there is a reason to refuse it decides which rule applies
    have hcompleted := completed?_eq_some_iff.2 ⟨h, hrefusal⟩
    have hreply : (m.perform command).reply = .status operation.status := by
      rw [perform_of_instruction h, Response.ofInstruction, result_execute, hrefusal, Option.elim]
    rw [hcompleted, hreply, machine_perform_of_instruction h]
    exact .completed hcommand h
  | some fault =>
    rw [completed?_eq_none_of_refusal h hrefusal, (reply_refused_iff h fault).2 hrefusal,
      machine_perform_of_refusal h hrefusal]
    exact .refused hcommand

/-- Every command goes in one of the ways. -/
theorem performed_perform (m : Machine) (command : Command) :
    Performed m command (command.completed? m) (m.perform command).reply
      (m.perform command).machine := by
  cases command with
  | cycle =>
    cases hwait : m.waiting with
    | true =>
      have hnone : Command.cycle.instruction? m = none := by simp [Command.instruction?, hwait]
      rw [completed?_eq_none hnone, perform, cycle_of_waiting hwait, Response.ofInstruction]
      exact .awaiting hwait
    | false =>
      cases hdecode : DecodingTable.standard.decode? m.fetch with
      | none =>
        have hnone : Command.cycle.instruction? m = none := by
          simp [Command.instruction?, hwait, hdecode]
        rw [completed?_eq_none hnone, perform, cycle_of_unknown hwait hdecode, Attempt.failed,
          Response.ofInstruction]
        exact .refused rfl
      | some operation =>
        have hsome : Command.cycle.instruction? m = some (operation, m.fetch) := by
          simp [Command.instruction?, hwait, hdecode]
        exact performed_of_instruction rfl hsome
  | execute operation w => exact performed_of_instruction rfl rfl
  | load source =>
    rw [completed?_eq_none rfl, perform, load]
    cases hprogram : Program.ofSource source with
    | ok program => exact .loaded hprogram
    | error reason => exact .rejected hprogram
  | pass => exact .pass
  | tick => exact .tick
  | press code => exact .press code
  | release code => exact .release code
  | takeStale => exact .takeStale

/-- What is left alone unless an instruction is carried out: all that is acted on from inside only. -/
structure Untouched (before after : Machine) : Prop where
  index : after.index = before.index
  calls : after.calls = before.calls
  keyRegister : after.keyRegister = before.keyRegister
  transfer : after.transfer = before.transfer
  random : after.random = before.random

/-- What carries out no instruction acts on a machine from outside. -/
theorem untouched_perform {m : Machine} {command : Command} (h : command.completed? m = none) :
    Untouched m (m.perform command).machine := by
  have hperformed := performed_perform m command
  rw [h] at hperformed
  generalize (m.perform command).reply = reply at hperformed
  generalize (m.perform command).machine = after at hperformed ⊢
  cases hperformed with
  | press code =>
    rw [press_eq]
    exact ⟨rfl, rfl, rfl, rfl, rfl⟩
  | @loaded _ program =>
    obtain ⟨memory, hmemory⟩ := exists_install_eq m program
    rw [hmemory]
    exact ⟨rfl, rfl, rfl, rfl, rfl⟩
  | refused | awaiting | pass | tick | release | rejected | takeStale =>
    exact ⟨rfl, rfl, rfl, rfl, rfl⟩

end Chip8.Machine
