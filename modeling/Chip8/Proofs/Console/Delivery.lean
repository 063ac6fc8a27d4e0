import Chip8.Proofs.Console.KeyMove
import Chip8.Proofs.Console.Run

/-!
# The delivery of key moves

Key moves reach the machine once each, in the order in which they were queued, and only between
instructions. For a run of a console this is kept as an account (`Account`): the machine is what the
actions make of it, and the key moves among the actions, followed by those still queued, are those
that were queued before, followed by those that the run has queued.

* `account_step`, `account_perform`, `account_run`: the account of a step, of a command, of a run.
* `step_deliver`: a step is a delivery of the whole queue and a step without a queue.
* `key_moves_delivered_in_order`: these together, with what a delivered queue does to the machine.
-/

namespace Chip8

namespace KeyMove

/-- The key move that a machine is given by a command, if it is given one. -/
def ofCommand? : Machine.Command → Option KeyMove
  | .press code => some (down code)
  | .release code => some (up code)
  | _ => none

/-- The key moves among the commands that a machine is given. -/
def delivered (actions : List Machine.Command) : List KeyMove :=
  actions.filterMap ofCommand?

/-- The key moves among two lists of actions are those of the first one, then those of the second. -/
theorem delivered_append (first second : List Machine.Command) :
    delivered (first ++ second) = delivered first ++ delivered second :=
  List.filterMap_append

/-- Key moves that are given as commands are the key moves among these. -/
theorem delivered_map_command (moves : List KeyMove) : delivered (moves.map command) = moves := by
  have hmove : ofCommand? ∘ command = some := by
    funext move
    cases move <;> rfl
  rw [delivered, List.filterMap_map, hmove, List.filterMap_some]

/-- The outcome of a step gives the machine no key move. -/
theorem delivered_actions (outcome : Outcome) : delivered outcome.actions = [] := by
  cases outcome <;> rfl

/-- To perform a key move as a command is to deliver it. -/
theorem machine_perform_command (m : Machine) (move : KeyMove) :
    (m.perform move.command).machine = move.deliver m := by
  cases move <;> rfl

/-- To perform key moves one after the other is to deliver them all. -/
theorem run_map_command (m : Machine) (moves : List KeyMove) :
    m.run (moves.map command) = deliverAll m moves := by
  simp only [Machine.run, deliverAll, List.foldl_map, machine_perform_command]

end KeyMove

namespace Console

open KeyMove

/-- The key move that a command queues. -/
def Command.queued? : Command → Option KeyMove
  | enqueue move => some move
  | _ => none

/-- The key moves that a list of commands queues, in order. -/
def queued (commands : List Command) : List KeyMove :=
  commands.filterMap Command.queued?

/-- What has become of a console by way of the actions on its machine, with key moves queued in the
meantime. -/
structure Account (before : Console) (actions : List Machine.Command) (moves : List KeyMove)
    (after : Console) : Prop where
  /-- Nothing but the actions has been done to the machine. -/
  machine : after.machine = before.machine.run actions
  /-- No key move is lost, doubled or overtaken. -/
  queue : delivered actions ++ after.queue = before.queue ++ moves

namespace Account

/-- Nothing done and nothing queued is accounted for. -/
theorem refl (console : Console) : Account console [] [] console :=
  ⟨rfl, (List.append_nil _).symm⟩

/-- Accounts of two stretches of a run make an account of both. -/
theorem trans {a b c : Console} {first second : List Machine.Command} {moves moves' : List KeyMove}
    (h : Account a first moves b) (h' : Account b second moves' c) :
    Account a (first ++ second) (moves ++ moves') c where
  machine := by rw [h'.machine, h.machine, Machine.run_append]
  queue := by
    rw [delivered_append, List.append_assoc, h'.queue, ← List.append_assoc, h.queue,
      List.append_assoc]

/-- A console that has delivered its queue, and has then done to its machine what an outcome says. -/
theorem of_outcome {console after : Console} {outcome : Outcome}
    (hmachine : after.machine = console.deliver.machine.run outcome.actions)
    (hqueue : after.queue = []) :
    Account console (console.queue.map command ++ outcome.actions) [] after where
  machine := by
    rw [hmachine, Machine.run_append, run_map_command]
    rfl
  queue := by
    rw [hqueue, delivered_append, delivered_map_command, delivered_actions, List.append_nil]

end Account

/-! ## Steps, commands and runs -/

section Account

variable (console : Console)

/-- **One step.** It delivers the queue and queues nothing. -/
theorem account_step : Account console console.stepActions [] console.step.console := by
  have hstep := stepped_step console
  rw [stepActions]
  generalize console.step.outcome = outcome at hstep ⊢
  generalize console.step.console = after at hstep ⊢
  cases hstep with
  | frozen hfault =>
    rw [hfault]
    exact .refl console
  | awaiting hfault hwait =>
    rw [hfault]
    exact .of_outcome rfl rfl
  | ran hfault hwait hresult =>
    rw [hfault]
    exact .of_outcome (Machine.machine_perform_cycle _).symm rfl
  -- a failed cycle leaves the machine alone, so that only the pass after it counts
  | passed hfault hwait hresult hrecover =>
    rw [hfault]
    refine .of_outcome ?_ rfl
    rw [Outcome.actions, Machine.run_cons, Machine.machine_perform_cycle_of_error hresult]
    rfl
  | halted hfault hwait hresult hrecover =>
    rw [hfault]
    refine .of_outcome ?_ rfl
    rw [Outcome.actions, Machine.run_cons, Machine.machine_perform_cycle_of_error hresult]
    rfl

/-- Steps in a row are accounted for together. -/
theorem account_afterSteps (count : ℕ) :
    Account console (console.stepsActions count) [] (console.afterSteps count) := by
  induction count generalizing console with
  | zero => exact .refl console
  | succ count ih => exact (account_step console).trans (ih console.step.console)

/-- A frame is its steps, and a tick that delivers nothing. -/
theorem account_frame :
    Account console (Command.frame.actions console) [] console.frame.console := by
  have hsteps := account_afterSteps console console.settings.frameLength
  rw [Command.actions, console_frame]
  by_cases hstopped : console.frame.summary.stopped = true
  · rw [if_pos hstopped, if_pos hstopped, List.append_nil]
    exact hsteps
  · rw [if_neg hstopped, if_neg hstopped]
    exact hsteps.trans ⟨rfl, (List.append_nil _).symm⟩

/-- **One command.** Only to enqueue a key move queues one. -/
theorem account_perform (command : Command) :
    Account console (command.actions console) command.queued?.toList
      (console.perform command).console := by
  cases command with
  | enqueue move => exact ⟨rfl, rfl⟩
  | step => exact account_step console
  | frame => exact account_frame console

/-- Over any run, the key moves delivered and those queued are those that were queued to begin with
and in the meantime. -/
theorem account_run (commands : List Command) :
    Account console (console.actions commands) (queued commands) (console.run commands) := by
  induction commands generalizing console with
  | nil => exact .refl console
  | cons command rest ih =>
    have hqueued : queued (command :: rest) = command.queued?.toList ++ queued rest := by
      cases command <;> rfl
    rw [hqueued]
    exact (account_perform console command).trans (ih _)

end Account

/-! ## Stopped consoles -/

section Stopped

variable {console : Console} {fault : Fault}

/-- A console that has stopped does not change in its steps. -/
theorem afterSteps_of_fault (h : console.fault = some fault) (count : ℕ) :
    console.afterSteps count = console :=
  afterSteps_of_still console (by rw [step_of_fault console h]) count

/-- The steps of a console that has stopped do nothing to its machine. -/
theorem stepsActions_of_fault (h : console.fault = some fault) (count : ℕ) :
    console.stepsActions count = [] := by
  induction count with
  | zero => rfl
  | succ count ih =>
    rw [stepsActions, stepActions, step_of_fault console h, h]
    exact ih

/-- A console that has stopped delivers nothing, and stays stopped. -/
theorem delivered_perform_of_fault (h : console.fault = some fault) (command : Command) :
    delivered (command.actions console) = [] ∧
      (console.perform command).console.fault = some fault := by
  cases command with
  | enqueue move => exact ⟨rfl, h⟩
  | step =>
    rw [Command.actions, stepActions, h, perform, step_of_fault console h]
    exact ⟨rfl, h⟩
  | frame =>
    rw [Command.actions, stepsActions_of_fault h, perform]
    -- the frame has no steps left in it; whether it would tick makes no difference here
    simp only [console_frame, afterSteps_of_fault h]
    by_cases hstopped : console.frame.summary.stopped = true
    · rw [if_pos hstopped, if_pos hstopped]
      exact ⟨rfl, h⟩
    · rw [if_neg hstopped, if_neg hstopped]
      exact ⟨rfl, h⟩

/-- A console that has stopped delivers nothing, whatever is done to it. -/
theorem delivered_run_of_fault (h : console.fault = some fault) (commands : List Command) :
    delivered (console.actions commands) = [] := by
  induction commands generalizing console with
  | nil => rfl
  | cons command rest ih =>
    obtain ⟨hdelivered, hfault⟩ := delivered_perform_of_fault h command
    rw [actions, delivered_append, hdelivered, ih hfault, List.append_nil]

end Stopped

/-! ## A step with a queue, and one without -/

/-- A step is the delivery of the whole queue, then a step of a console with nothing queued. -/
theorem step_deliver (console : Console) (h : console.fault = none) :
    console.step.outcome = console.deliver.step.outcome ∧
      console.step.console = console.deliver.step.console := by
  have hdeliver : console.deliver.fault = none := h
  obtain ⟨houtcome, hconsole⟩ := step_of_no_fault console h
  obtain ⟨houtcome', hconsole'⟩ := step_of_no_fault console.deliver hdeliver
  rw [houtcome, hconsole, houtcome', hconsole']
  exact ⟨rfl, rfl⟩

/-- A step of a running console leaves nothing queued. -/
theorem queue_step (console : Console) (h : console.fault = none) :
    console.step.console.queue = [] := by
  have hstep := stepped_step console
  generalize console.step.outcome = outcome at hstep
  generalize console.step.console = after at hstep ⊢
  cases hstep with
  | frozen hfault => rw [h] at hfault; cases hfault
  | awaiting | ran | passed | halted => rfl

/-- **Key moves are delivered once each and in order.** Over any run a machine is given commands
only, among them the key moves in the order in which they were queued, and those not yet delivered
are still queued. A step delivers the whole queue and goes on without one; a console that has stopped
delivers nothing. A delivered queue leaves each key as the last move that names it says, ends a wait
with the first press, and changes nothing else. -/
theorem key_moves_delivered_in_order :
    (∀ (console : Console) (commands : List Command),
      (console.run commands).machine = console.machine.run (console.actions commands) ∧
        delivered (console.actions commands) ++ (console.run commands).queue =
          console.queue ++ queued commands) ∧
    (∀ console : Console, console.fault = none →
      let ready : Console :=
        { console with machine := deliverAll console.machine console.queue, queue := [] }
      console.step.outcome = ready.step.outcome ∧
        console.step.console = ready.step.console ∧ console.step.console.queue = []) ∧
    (∀ (console : Console) (fault : Fault), console.fault = some fault →
      console.step = ⟨.stopped fault, console, []⟩ ∧
        ∀ commands : List Command, delivered (console.actions commands) = [] ∧
          (console.run commands).queue = console.queue ++ queued commands) ∧
    (∀ (m : Machine) (moves : List KeyMove),
      (∀ key, (deliverAll m moves).keypad.isDown key =
        (lastOf? moves key).elim (m.keypad.isDown key) isDown) ∧
      (deliverAll m moves).registers =
        (if m.waiting then
          (firstPress? moves).elim m.registers fun code => m.registers.set m.keyRegister (code % 16)
        else m.registers) ∧
      (deliverAll m moves).waiting = (m.waiting && (firstPress? moves).isNone) ∧
      deliverAll m moves =
        { m with
          keypad := (deliverAll m moves).keypad
          registers := (deliverAll m moves).registers
          waiting := (deliverAll m moves).waiting }) := by
  refine ⟨?_, ?_, ?_, ?_⟩
  · intro console commands
    obtain ⟨hmachine, hqueue⟩ := account_run console commands
    exact ⟨hmachine, hqueue⟩
  · intro console h
    obtain ⟨houtcome, hconsole⟩ := step_deliver console h
    exact ⟨houtcome, hconsole, queue_step console h⟩
  · intro console fault h
    refine ⟨step_of_fault console h, ?_⟩
    intro commands
    have hdelivered : delivered (console.actions commands) = [] := delivered_run_of_fault h commands
    have hqueue := (account_run console commands).queue
    rw [hdelivered, List.nil_append] at hqueue
    exact ⟨hdelivered, hqueue⟩
  · intro m moves
    exact ⟨isDown_deliverAll m moves, registers_deliverAll m moves, waiting_deliverAll m moves,
      deliverAll_eq m moves⟩

end Console

end Chip8
