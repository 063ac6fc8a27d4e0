import Chip8.Proofs.Machine.Run

/-!
# Changes of the display

The display is repainted when it is cleared or drawn on, and by nothing else. Two signals tell of it:
the status of the command, and the flag of the display, which stays up until it is taken.

* `reply_redraw_iff`: a command reports that it repaints just when it does.
* `stale_perform`, `display_perform`: what a command makes of the flag and of the display.
* `stale_run`, `display_run`: what a run makes of them in which the flag is not taken.
-/

namespace Chip8

/-- The operations with this status are those that clear the display or draw on it. -/
theorem Operation.status_eq_redraw_iff (operation : Operation) :
    operation.status = .redraw ↔ operation = .clear ∨ operation = .draw := by
  cases operation <;> simp [Operation.status]

namespace Machine

/-- A command carries out an instruction that clears the display or draws on it. -/
def Command.Repaints (m : Machine) (command : Command) : Prop :=
  ∃ instruction ∈ command.completed? m, instruction.1 = .clear ∨ instruction.1 = .draw

/-- A run carries out an instruction that clears the display or draws on it. -/
def Repainted (m : Machine) (commands : List Command) : Prop :=
  ∃ instruction ∈ m.completed commands, instruction.1 = .clear ∨ instruction.1 = .draw

theorem repainted_cons (m : Machine) (command : Command) (rest : List Command) :
    m.Repainted (command :: rest) ↔
      command.Repaints m ∨ (m.perform command).machine.Repainted rest := by
  simp only [Repainted, completed, List.mem_append, Option.mem_toList, Option.mem_def, or_and_right,
    exists_or, Command.Repaints]

/-! ## Commands -/

section Perform

variable {m : Machine} {command : Command}

/-- A command reports that it repaints just when it does. -/
theorem reply_redraw_iff (m : Machine) (command : Command) :
    (m.perform command).reply = .status .redraw ↔ command.Repaints m := by
  have hperformed := performed_perform m command
  rw [Command.Repaints]
  generalize command.completed? m = instruction at hperformed ⊢
  generalize (m.perform command).reply = reply at hperformed ⊢
  generalize (m.perform command).machine = after at hperformed
  cases hperformed with
  | completed => simp [Operation.status_eq_redraw_iff]
  | refused | awaiting | pass | tick | press | release | loaded | rejected | takeStale => simp

/-- After it is repainted the display is stale. -/
theorem stale_perform (h : command.Repaints m) : (m.perform command).machine.display.stale = true := by
  obtain ⟨⟨operation, w⟩, hcompleted, hrepaints⟩ := h
  rw [machine_perform_of_completed hcompleted]
  rcases hrepaints with hclear | hdraw
  · rw [show operation = .clear from hclear]
    rfl
  · rw [show operation = .draw from hdraw]
    rfl

/-- What does not repaint the display leaves it alone, unless it takes the flag. -/
theorem display_perform (h : ¬command.Repaints m) (hcommand : command ≠ .takeStale) :
    (m.perform command).machine.display = m.display := by
  have hperformed := performed_perform m command
  rw [Command.Repaints] at h
  generalize command.completed? m = instruction at h hperformed
  generalize (m.perform command).reply = reply at hperformed
  generalize (m.perform command).machine = after at hperformed ⊢
  cases hperformed with
  | @completed _ operation w =>
    have hother : ¬(operation = .clear ∨ operation = .draw) := fun hrepaints =>
      h ⟨(operation, w), rfl, hrepaints⟩
    exact (footprint_effect operation w m).display (fun hclear => hother (.inl hclear))
      fun hdraw => hother (.inr hdraw)
  | press code => rw [press_eq]
  | @loaded _ program =>
    obtain ⟨memory, hmemory⟩ := exists_install_eq m program
    rw [hmemory]
  | takeStale => exact absurd rfl hcommand
  | refused | awaiting | pass | tick | release | rejected => rfl

end Perform

/-! ## Runs -/

section Run

variable {m : Machine} {commands : List Command} (htaken : .takeStale ∉ commands)
include htaken

/-- **A whole run.** As long as the flag is not taken, the display is stale if it was stale before or
has been repainted. -/
theorem stale_run :
    (m.run commands).display.stale = true ↔ m.display.stale = true ∨ m.Repainted commands := by
  induction commands generalizing m with
  | nil => simp [Repainted, completed]
  | cons command rest ih =>
    have hcommand := List.ne_of_not_mem_cons htaken
    have hrest := List.not_mem_of_not_mem_cons htaken
    rw [run_cons, ih hrest, repainted_cons]
    -- a first command that repaints raises the flag, and any other one hands on the flag it found
    by_cases hrepaints : command.Repaints m
    · simp [stale_perform hrepaints, hrepaints]
    · simp [display_perform hrepaints (Ne.symm hcommand), hrepaints]

/-- As long as it is not repainted and the flag is not taken, the display stays as it is. -/
theorem display_run (h : ¬m.Repainted commands) : (m.run commands).display = m.display := by
  induction commands generalizing m with
  | nil => rfl
  | cons command rest ih =>
    have hcommand := List.ne_of_not_mem_cons htaken
    have hrest := List.not_mem_of_not_mem_cons htaken
    rw [repainted_cons, not_or] at h
    rw [run_cons, ih hrest h.2, display_perform h.1 (Ne.symm hcommand)]

end Run

end Machine

end Chip8
