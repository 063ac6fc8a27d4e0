import Chip8.Proofs.Machine.Run

/-!
# What the timers say

A timer is set by one instruction and counted down by ticks, and nothing else touches it. So after any
run it says what it was last set to, less the ticks since then. `Timer` names the two timers, and
`LastSet` says what one of them was last set to in a run and what has been done since.

* `read_perform_of_unset`: what sets no timer and is no tick leaves it as it is.
* `read_run_of_unset`: a run that does not set a timer takes its ticks off, down to zero.
* `exists_lastSet`, `read_run`: every run has a last setting, and what the timer says follows from it.
-/

namespace Chip8

open Machine (Command countDown)

/-- The two timers of a machine. -/
inductive Timer where
  | delay
  | sound
deriving DecidableEq

namespace Timer

/-- What a timer of a machine says. -/
def read (m : Machine) : Timer → UInt8
  | delay => m.delay
  | sound => m.sound

/-- The operation that sets a timer. -/
def setter : Timer → Operation
  | delay => .setDelay
  | sound => .setSound

/-- Whether a run sets a timer nowhere. -/
def Unset (timer : Timer) (m : Machine) (commands : List Command) : Prop :=
  ∀ instruction ∈ m.completed commands, instruction.1 ≠ timer.setter

instance (timer : Timer) (m : Machine) (commands : List Command) :
    Decidable (timer.Unset m commands) :=
  inferInstanceAs (Decidable (∀ instruction ∈ m.completed commands, _))

theorem unset_append (timer : Timer) (m : Machine) (first second : List Command) :
    timer.Unset m (first ++ second) ↔ timer.Unset m first ∧ timer.Unset (m.run first) second := by
  rw [Unset, Machine.completed_append, List.forall_mem_append]
  rfl

theorem unset_cons (timer : Timer) (m : Machine) (command : Command) (rest : List Command) :
    timer.Unset m (command :: rest) ↔
      (∀ instruction ∈ command.completed? m, instruction.1 ≠ timer.setter) ∧
        timer.Unset (m.perform command).machine rest := by
  simp only [Unset, Machine.completed, List.forall_mem_append, Option.mem_toList, Option.mem_def]

/-! ## One command -/

/-- A tick takes one off, but not below zero. -/
theorem toNat_countDown (value : UInt8) : (countDown value).toNat = value.toNat - 1 := by
  rw [countDown]
  split
  · next h => rw [h]; rfl
  · next h =>
    have hpos : (1 : UInt8) ≤ value := by
      rw [UInt8.le_iff_toNat_le]
      have hne : value.toNat ≠ 0 := fun hzero => h (UInt8.toNat_inj.1 hzero)
      exact Nat.one_le_iff_ne_zero.2 hne
    rw [UInt8.toNat_sub_of_le _ _ hpos]
    rfl

section Perform

variable (timer : Timer) {m : Machine} {command : Command}

/-- A tick counts both timers down. -/
theorem read_perform_tick (m : Machine) :
    timer.read (m.perform .tick).machine = countDown (timer.read m) := by
  cases timer <;> rfl

/-- What sets a timer sets it to the register in its instruction. -/
theorem read_perform_of_set {w : Opcode} (h : command.completed? m = some (timer.setter, w)) :
    timer.read (m.perform command).machine = m.registers.get w.x := by
  rw [Machine.machine_perform_of_completed h]
  cases timer <;> rfl

/-- An operation that does not set a timer leaves it as it is. -/
theorem read_effect {operation : Operation} (h : operation ≠ timer.setter) (w : Opcode)
    (m : Machine) : timer.read (operation.effect w m).machine = timer.read m := by
  have hfootprint := Machine.footprint_effect operation w m
  cases timer with
  | delay => exact hfootprint.delay h
  | sound => exact hfootprint.sound h

/-- **One command.** What sets no timer and is no tick leaves it as it is. -/
theorem read_perform_of_unset
    (hset : ∀ instruction ∈ command.completed? m, instruction.1 ≠ timer.setter)
    (htick : command ≠ .tick) : timer.read (m.perform command).machine = timer.read m := by
  have hperformed := Machine.performed_perform m command
  generalize command.completed? m = instruction at hset hperformed
  generalize (m.perform command).reply = reply at hperformed
  generalize (m.perform command).machine = after at hperformed ⊢
  cases hperformed with
  | completed hcommand hinstruction => exact timer.read_effect (hset _ rfl) _ m
  | tick => exact absurd rfl htick
  | press code =>
    rw [Machine.press_eq]
    cases timer <;> rfl
  | @loaded _ program =>
    obtain ⟨memory, hmemory⟩ := Machine.exists_install_eq m program
    rw [hmemory]
    cases timer <;> rfl
  | refused | awaiting | rejected => rfl
  | pass | release | takeStale => cases timer <;> rfl

end Perform

/-! ## Runs -/

/-- A run that does not set a timer takes its ticks off, down to zero. -/
theorem read_run_of_unset (timer : Timer) {m : Machine} {commands : List Command}
    (h : timer.Unset m commands) :
    (timer.read (m.run commands)).toNat = (timer.read m).toNat - commands.count .tick := by
  induction commands generalizing m with
  | nil => rfl
  | cons command rest ih =>
    obtain ⟨hcommand, hrest⟩ := (timer.unset_cons m command rest).1 h
    rw [Machine.run_cons, ih hrest]
    by_cases htick : command = .tick
    -- at zero the subtraction stops, as the timer does
    · rw [htick, read_perform_tick, toNat_countDown, List.count_cons_self, Nat.sub_sub,
        Nat.add_comm]
    · rw [timer.read_perform_of_unset hcommand htick, List.count_cons_of_ne htick]

/-- What a timer was last set to in a run, and the commands since then. A timer that has not been set
counts down from what it said at first. -/
inductive LastSet (timer : Timer) (m : Machine) : List Command → UInt8 → List Command → Prop where
  /-- The run does not set the timer. -/
  | never {commands : List Command} (h : timer.Unset m commands) :
      LastSet timer m commands (timer.read m) commands
  /-- A command of the run sets the timer, and none after it does. -/
  | set (before : List Command) {command : Command} {since : List Command} {w : Opcode}
      (hset : command.completed? (m.run before) = some (timer.setter, w))
      (hsince : timer.Unset (m.run (before ++ [command])) since) :
      LastSet timer m (before ++ command :: since) ((m.run before).registers.get w.x) since

/-- Every run has a last setting. -/
theorem exists_lastSet (timer : Timer) (m : Machine) (commands : List Command) :
    ∃ value since, timer.LastSet m commands value since := by
  induction commands generalizing m with
  | nil => exact ⟨_, _, .never (by simp [Unset, Machine.completed])⟩
  | cons command rest ih =>
    obtain ⟨value, since, hrest⟩ := ih (m.perform command).machine
    -- a setting in the rest comes last; if there is none, the first command may be the last one to set
    cases hrest with
    | never hunset =>
      by_cases hset : ∃ w, command.completed? m = some (timer.setter, w)
      · obtain ⟨w, hset⟩ := hset
        exact ⟨_, _, .set [] hset hunset⟩
      · refine ⟨_, _, .never ((timer.unset_cons m command rest).2 ⟨?_, hunset⟩)⟩
        rintro ⟨operation, w⟩ hinstruction rfl
        exact hset ⟨w, hinstruction⟩
    | @set before _ _ _ hset hsince => exact ⟨_, _, .set (command :: before) hset hsince⟩

/-- What has been done since the last setting is the end of the run. -/
theorem LastSet.suffix {timer : Timer} {m : Machine} {commands since : List Command} {value : UInt8}
    (h : timer.LastSet m commands value since) : since <:+ commands := by
  cases h with
  | never => exact List.suffix_rfl
  | @set before command => exact ⟨before ++ [command], List.append_assoc ..⟩

/-- **A whole run.** A timer says what it was last set to, less the ticks since then. -/
theorem read_run {timer : Timer} {m : Machine} {commands since : List Command} {value : UInt8}
    (h : timer.LastSet m commands value since) :
    (timer.read (m.run commands)).toNat = value.toNat - since.count .tick := by
  cases h with
  | never hunset => exact timer.read_run_of_unset hunset
  | @set before command _ w hset hsince =>
    rw [← List.singleton_append, ← List.append_assoc, Machine.run_append,
      timer.read_run_of_unset hsince, Machine.run_concat, timer.read_perform_of_set hset]

/-- An instruction that reads the delay timer puts what the timer says into its register. -/
theorem get_run_of_getDelay {m : Machine} {before : List Command} {command : Command} {w : Opcode}
    (h : command.instruction? (m.run before) = some (.getDelay, w)) :
    (m.run (before ++ [command])).registers.get w.x = (m.run before).delay := by
  rw [Machine.run_concat, Machine.machine_perform_of_instruction h]
  exact RegisterFile.get_set_self ..

end Timer

end Chip8
