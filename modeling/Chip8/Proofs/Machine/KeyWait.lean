import Chip8.Proofs.Machine.Run

/-!
# Waiting for a key

A machine either runs or awaits a key for a register (`awaited?`). A wait is opened by a completed
wait instruction and by nothing else, and ended by a key press and by nothing else.

* `awaited?_perform`: what a command makes of the wait.
* `exists_run_eq_of_waiting`: until the press comes, only the timers and the keypad move.
* `awaited?_run`, `registers_press`: of all presses after a wait instruction, the first one writes the
  register.
* `key_wait_gate`: these together.
-/

namespace Chip8.Machine

namespace Command

/-- Whether a command puts a key down. -/
def isPress : Command → Bool
  | press _ => true
  | _ => false

/-- Whether a command is a cycle, a tick or the release of a key: what goes on while no key comes. -/
def isIdle : Command → Bool
  | cycle | tick | release _ => true
  | _ => false

/-- The register that a command begins to await a key for. -/
def opens? (m : Machine) (command : Command) : Option RegisterIndex :=
  (command.completed? m).bind fun instruction =>
    if instruction.1 = .awaitKey then some instruction.2.x else none

/-- A wait is begun by a completed wait instruction, for the register in it. -/
theorem opens?_eq_some_iff {m : Machine} {command : Command} {r : RegisterIndex} :
    command.opens? m = some r ↔ ∃ w, command.completed? m = some (.awaitKey, w) ∧ w.x = r := by
  simp only [opens?, Option.bind_eq_some_iff, Option.ite_none_right_eq_some, Option.some.injEq,
    Prod.exists]
  constructor
  · rintro ⟨_, w, h, rfl, hr⟩
    exact ⟨w, h, hr⟩
  · rintro ⟨w, h, hr⟩
    exact ⟨_, w, h, rfl, hr⟩

theorem isPress_iff {command : Command} : command.isPress = true ↔ ∃ code, command = press code := by
  cases command <;> simp [isPress]

theorem isPress_of_isInstruction {command : Command} (h : command.isInstruction = true) :
    command.isPress = false := by
  cases command with
  | press code => cases h
  | _ => rfl

end Command

/-- The register that a key is awaited for, if one is. -/
def awaited? (m : Machine) : Option RegisterIndex :=
  if m.waiting then some m.keyRegister else none

theorem awaited?_eq_some_iff (m : Machine) (r : RegisterIndex) :
    m.awaited? = some r ↔ m.waiting = true ∧ m.keyRegister = r := by
  simp only [awaited?, Option.ite_none_right_eq_some, Option.some.injEq]

theorem awaited?_eq_none_iff (m : Machine) : m.awaited? = none ↔ m.waiting = false := by
  simp only [awaited?, ite_eq_right_iff, reduceCtorEq, imp_false, Bool.not_eq_true]

/-! ## What opens and ends a wait -/

/-- Of the operations, one opens a wait, and the others leave it as it is. -/
theorem awaited?_effect (operation : Operation) (w : Opcode) (m : Machine) :
    (operation.effect w m).machine.awaited? =
      if operation = .awaitKey then some w.x else m.awaited? := by
  by_cases hawait : operation = .awaitKey
  · rw [if_pos hawait, hawait]
    rfl
  · have hfootprint := footprint_effect operation w m
    rw [if_neg hawait, awaited?, awaited?, hfootprint.waiting hawait,
      hfootprint.keyRegister hawait]

/-- **One command.** A press ends the wait, a completed wait instruction opens one, and nothing else
makes a difference. -/
theorem awaited?_perform (m : Machine) (command : Command) :
    (m.perform command).machine.awaited? =
      if command.isPress then none else (command.opens? m).or m.awaited? := by
  have hperformed := performed_perform m command
  rw [Command.opens?]
  generalize command.completed? m = instruction at hperformed ⊢
  generalize (m.perform command).reply = reply at hperformed
  generalize (m.perform command).machine = after at hperformed ⊢
  cases hperformed with
  | @completed _ operation w hcommand =>
    rw [Command.isPress_of_isInstruction hcommand, awaited?_effect]
    by_cases hawait : operation = .awaitKey
    · simp [hawait]
    · simp [hawait]
  | refused hcommand =>
    rw [Command.isPress_of_isInstruction hcommand]
    rfl
  | press code =>
    rw [press_eq]
    rfl
  | @loaded _ program =>
    obtain ⟨memory, hmemory⟩ := exists_install_eq m program
    rw [hmemory]
    rfl
  | awaiting | pass | tick | release | rejected | takeStale => rfl

section Transition

variable {m : Machine} {command : Command}

/-- A command that completes a wait instruction is a cycle that fetches it, or carries it out at
once. -/
theorem eq_cycle_or_execute_of_completed? {operation : Operation} {w : Opcode}
    (h : command.completed? m = some (operation, w)) :
    command = .cycle ∨ command = .execute operation w := by
  have hinstruction := (completed?_eq_some_iff.1 h).1
  cases command with
  | cycle => exact .inl rfl
  | execute operation' w' =>
    simp only [Command.instruction?, Option.some.injEq, Prod.mk.injEq] at hinstruction
    obtain ⟨rfl, rfl⟩ := hinstruction
    exact .inr rfl
  | _ => cases hinstruction

/-- After a completed wait instruction a key is awaited for its register, past the instruction. -/
theorem awaited?_of_awaitKey {w : Opcode} (h : command.completed? m = some (.awaitKey, w)) :
    (m.perform command).machine.awaited? = some w.x ∧
      (m.perform command).machine.pc = m.pc + Opcode.size := by
  rw [machine_perform_of_completed h]
  exact ⟨rfl, rfl⟩

/-- A wait begins with a completed wait instruction. -/
theorem exists_awaitKey_of_begun (hbefore : m.waiting = false)
    (hafter : (m.perform command).machine.waiting = true) :
    ∃ w, command.completed? m = some (.awaitKey, w) := by
  have hawaited := awaited?_perform m command
  rw [(awaited?_eq_some_iff _ _).2 ⟨hafter, rfl⟩, (awaited?_eq_none_iff m).2 hbefore,
    Option.or_none] at hawaited
  split at hawaited
  · cases hawaited
  · obtain ⟨w, hcompleted, -⟩ := Command.opens?_eq_some_iff.1 hawaited.symm
    exact ⟨w, hcompleted⟩

/-- A wait ends with a press. -/
theorem isPress_of_ended (hbefore : m.waiting = true)
    (hafter : (m.perform command).machine.waiting = false) : command.isPress = true := by
  have hawaited := awaited?_perform m command
  rw [(awaited?_eq_none_iff _).2 hafter, (awaited?_eq_some_iff m _).2 ⟨hbefore, rfl⟩] at hawaited
  cases hpress : command.isPress with
  | true => rfl
  | false => cases hopens : command.opens? m <;> simp [hpress, hopens] at hawaited

end Transition

/-! ## While a key is awaited -/

section Waiting

variable {m : Machine}

/-- A cycle, a tick or a release moves nothing else while a key is awaited. -/
theorem exists_perform_eq_of_waiting {command : Command} (hwait : m.waiting = true)
    (hidle : command.isIdle = true) :
    ∃ delay sound keypad, (m.perform command).machine = { m with delay, sound, keypad } := by
  cases command with
  | cycle =>
    rw [machine_perform_cycle, cycle_of_waiting hwait]
    exact ⟨_, _, _, rfl⟩
  | tick | release => exact ⟨_, _, _, rfl⟩
  | _ => cases hidle

/-- As long as no key comes, only the timers and the keypad move. -/
theorem exists_run_eq_of_waiting {idle : List Command} (hwait : m.waiting = true)
    (hidle : ∀ command ∈ idle, command.isIdle = true) :
    ∃ delay sound keypad, m.run idle = { m with delay, sound, keypad } := by
  induction idle generalizing m with
  | nil => exact ⟨_, _, _, rfl⟩
  | cons command rest ih =>
    obtain ⟨hcommand, hrest⟩ := List.forall_mem_cons.1 hidle
    obtain ⟨delay, sound, keypad, hperform⟩ := exists_perform_eq_of_waiting hwait hcommand
    obtain ⟨delay', sound', keypad', hrun⟩ := ih (m := { m with delay, sound, keypad }) hwait hrest
    rw [run_cons, hperform, hrun]
    exact ⟨_, _, _, rfl⟩

/-- A press writes the register that a key is awaited for. -/
theorem registers_press (m : Machine) (code : UInt8) :
    (m.press code).registers =
      m.awaited?.elim m.registers fun r => m.registers.set r (code % 16) := by
  rw [press_eq, awaited?]
  split <;> rfl

end Waiting

/-! ## The first press -/

/-- **A whole run.** In a run that completes no wait instruction, the first press ends the wait. -/
theorem awaited?_run (m : Machine) (commands : List Command)
    (h : ∀ instruction ∈ m.completed commands, instruction.1 ≠ .awaitKey) :
    (m.run commands).awaited? = if commands.any Command.isPress then none else m.awaited? := by
  induction commands generalizing m with
  | nil => rfl
  | cons command rest ih =>
    rw [completed] at h
    obtain ⟨hcommand, hrest⟩ := List.forall_mem_append.1 h
    -- a wait that is opened would be one of the instructions that the run completes
    have hopens : command.opens? m = none := by
      refine Option.eq_none_iff_forall_ne_some.2 fun r hr => ?_
      obtain ⟨w, hcompleted, -⟩ := Command.opens?_eq_some_iff.1 hr
      exact hcommand (.awaitKey, w) (by rw [hcompleted]; simp) rfl
    rw [run_cons, ih _ hrest, awaited?_perform, hopens, Option.none_or, List.any_cons]
    cases command.isPress <;> cases rest.any Command.isPress <;> rfl

/-- **The key-wait gate.** While a key is awaited, cycles do nothing and only timers and keypad move;
the press that comes puts its key down, writes the register and ends the wait. In any run a wait
begins with a completed wait instruction and ends with a press only, and a press writes a register
only in a wait: of the presses after a wait instruction, up to the next one, that is the first. -/
theorem key_wait_gate :
    (∀ (m : Machine) (idle : List Command), m.waiting = true →
      (∀ command ∈ idle, command.isIdle = true) →
      (∀ earlier, earlier ++ [.cycle] <+: idle →
        (m.run earlier).cycle = ⟨.ok .waiting, m.run earlier, []⟩) ∧
      (∃ delay sound keypad, m.run idle = { m with delay, sound, keypad }) ∧
      ∀ code, m.run (idle ++ [.press code]) =
        { m.run idle with
          keypad := (m.run idle).keypad.set (Key.ofCode code) true
          registers := m.registers.set m.keyRegister (code % 16)
          waiting := false }) ∧
    (∀ (m : Machine) (before : List Command) (command : Command),
      let s := m.run before
      let t := m.run (before ++ [command])
      (s.waiting = false → t.waiting = true →
        ∃ w, command.completed? s = some (.awaitKey, w) ∧
          (command = .cycle ∨ command = .execute .awaitKey w)) ∧
      (∀ w, command.completed? s = some (.awaitKey, w) →
        t.waiting = true ∧ t.keyRegister = w.x ∧ t.pc = s.pc + 2) ∧
      (s.waiting = true → t.waiting = false → ∃ code, command = .press code) ∧
      (∀ code, command = .press code → t.registers ≠ s.registers → s.waiting = true)) ∧
    (∀ (m : Machine) (wait : Command) (w : Opcode) (between : List Command) (code : UInt8),
      wait.completed? m = some (.awaitKey, w) →
      (∀ instruction ∈ (m.perform wait).machine.completed between, instruction.1 ≠ .awaitKey) →
      (m.run (wait :: between ++ [.press code])).registers =
        if between.any Command.isPress then (m.run (wait :: between)).registers
        else (m.run (wait :: between)).registers.set w.x (code % 16)) := by
  refine ⟨?_, ?_, ?_⟩
  · intro m idle hwait hidle
    refine ⟨?_, exists_run_eq_of_waiting hwait hidle, ?_⟩
    · intro earlier hearlier
      have hmem : ∀ command ∈ earlier, command.isIdle = true :=
        fun command h => hidle command (hearlier.subset (List.mem_append_left _ h))
      obtain ⟨delay, sound, keypad, hrun⟩ := exists_run_eq_of_waiting hwait hmem
      rw [hrun]
      exact cycle_of_waiting hwait
    · intro code
      obtain ⟨delay, sound, keypad, hrun⟩ := exists_run_eq_of_waiting hwait hidle
      have hstill : (m.run idle).waiting = true := by
        rw [hrun]
        exact hwait
      rw [run_concat, perform, press_eq, if_pos hstill, hrun]
  · intro m before command s t
    have ht : t = (s.perform command).machine := run_concat m before command
    refine ⟨?_, ?_, ?_, ?_⟩
    · intro hs hwait
      obtain ⟨w, hcompleted⟩ := exists_awaitKey_of_begun hs (ht ▸ hwait)
      exact ⟨w, hcompleted, eq_cycle_or_execute_of_completed? hcompleted⟩
    · intro w hcompleted
      obtain ⟨hawaited, hpc⟩ := awaited?_of_awaitKey hcompleted
      obtain ⟨hwait, hregister⟩ := (awaited?_eq_some_iff _ _).1 hawaited
      rw [ht]
      exact ⟨hwait, hregister, hpc⟩
    · intro hs hwait
      exact Command.isPress_iff.1 (isPress_of_ended hs (ht ▸ hwait))
    · rintro code rfl hregisters
      cases hwait : s.waiting with
      | true => rfl
      | false =>
        have hsame : t.registers = s.registers := by
          rw [ht, perform, press_eq, hwait]
          rfl
        exact absurd hsame hregisters
  · intro m wait w between code hcompleted hbetween
    have hawaited := awaited?_run _ between hbetween
    rw [(awaited?_of_awaitKey hcompleted).1, ← run_cons] at hawaited
    rw [run_concat, perform, registers_press, hawaited]
    cases between.any Command.isPress <;> rfl

/-- A wait for a key into `V3`: idling, then a press of the key B under the code 0x1B, after which a
press of another key writes no register. -/
theorem awaited_key_arrives :
    let start := fresh .indexed (.ofSeed 0)
    let wait : Command := .execute .awaitKey ⟨0xF30A⟩
    let m := (start.perform wait).machine
    let idle : List Command := [.cycle, .release 0x3, .tick, .cycle]
    let between : List Command := idle ++ [.press 0x1B]
    (m.waiting = true ∧ (∀ command ∈ idle, command.isIdle = true) ∧
      (m.run between).registers.get 3 = 0xB) ∧
    wait.completed? start = some (.awaitKey, ⟨0xF30A⟩) ∧
      (∀ instruction ∈ m.completed between, instruction.1 ≠ .awaitKey) ∧
      (start.run (wait :: between ++ [.press 0x4])).registers =
        (start.run (wait :: between)).registers := by
  intro start wait m idle between
  have hwait : m.waiting = true := by decide
  have hidle : ∀ command ∈ idle, command.isIdle = true := by decide
  have hfirst : m.run between = _ := (key_wait_gate.1 m idle hwait hidle).2.2 0x1B
  have hcompleted : wait.completed? start = some (.awaitKey, ⟨0xF30A⟩) := by decide
  have hbetween : ∀ instruction ∈ m.completed between, instruction.1 ≠ .awaitKey := by decide
  have hlater := key_wait_gate.2.2 start wait ⟨0xF30A⟩ between 0x4 hcompleted hbetween
  refine ⟨⟨hwait, hidle, ?_⟩, hcompleted, hbetween, hlater⟩
  rw [hfirst]
  decide

end Chip8.Machine
