import Chip8.Console.Command
import Chip8.Proofs.Machine.Run

/-!
# Runs of a console

What a step of a console can do is said once, as a relation: `Stepped` has one rule for each way a
step can go, and `stepped_step` says that every step goes one of these ways. A frame is a number of
steps and perhaps a tick (`console_frame`): the steps left out at its end would have changed nothing.

A console acts on its machine by commands only. `actions` lists, for a run of the console, the
commands that its machine is given, one after the other.
-/

namespace Chip8

namespace Console

variable (console : Console)

/-! ## Steps -/

/-- The ways that a step can go, each with its outcome and the console afterwards. -/
inductive Stepped : Outcome → Console → Prop where
  /-- The console has stopped before. -/
  | frozen {fault : Fault} (hfault : console.fault = some fault) : Stepped (.stopped fault) console
  /-- The machine awaits a key, also after the queued moves. -/
  | awaiting (hfault : console.fault = none) (hwait : console.deliver.machine.waiting = true) :
      Stepped .awaitingKey console.deliver
  /-- An instruction is carried out. -/
  | ran (hfault : console.fault = none) (hwait : console.deliver.machine.waiting = false)
      {status : Status} (hresult : console.deliver.machine.cycle.result = .ok status) :
      Stepped (.ran status)
        { console.deliver with machine := console.deliver.machine.cycle.machine }
  /-- An instruction is refused, and passed over. -/
  | passed (hfault : console.fault = none) (hwait : console.deliver.machine.waiting = false)
      {fault : Fault} (hresult : console.deliver.machine.cycle.result = .error fault)
      (hrecover : fault.isRecoverable = true ∧ console.settings.onUnknown = .pass) :
      Stepped (.passedOver console.deliver.machine.fetch)
        { console.deliver with machine := console.deliver.machine.pass }
  /-- An instruction is refused, and the console stops. -/
  | halted (hfault : console.fault = none) (hwait : console.deliver.machine.waiting = false)
      {fault : Fault} (hresult : console.deliver.machine.cycle.result = .error fault)
      (hrecover : ¬(fault.isRecoverable = true ∧ console.settings.onUnknown = .pass)) :
      Stepped (.stopped fault) { console.deliver with fault := some fault }

/-- A console that has stopped stays as it is, and logs nothing more. -/
theorem step_of_fault {fault : Fault} (h : console.fault = some fault) :
    console.step = ⟨.stopped fault, console, []⟩ := by
  rw [step, h]

/-- Without a fault a step delivers the queue and goes on from there. -/
theorem step_of_no_fault (h : console.fault = none) :
    console.step.outcome = console.deliver.play.outcome ∧
      console.step.console = console.deliver.play.console := by
  rw [step, h]
  exact ⟨rfl, rfl⟩

section Play

variable {console : Console}

/-- While a key is awaited nothing is carried out. -/
theorem play_of_waiting (hwait : console.machine.waiting = true) :
    console.play = ⟨.awaitingKey, console, []⟩ := by
  rw [play, if_pos hwait]

/-- A cycle that succeeds is all that happens. -/
theorem play_of_ok (hwait : console.machine.waiting = false) {status : Status}
    (hresult : console.machine.cycle.result = .ok status) :
    console.play =
      ⟨.ran status, { console with machine := console.machine.cycle.machine },
        console.machine.cycle.log⟩ := by
  rw [play, if_neg (Bool.eq_false_iff.1 hwait)]
  simp only [hresult]

/-- After a fault that is recovered from, the machine is put past the opcode, which the log tells. -/
theorem play_of_recovered (hwait : console.machine.waiting = false) {fault : Fault}
    (hresult : console.machine.cycle.result = .error fault)
    (hrecover : fault.isRecoverable = true ∧ console.settings.onUnknown = .pass) :
    console.play =
      ⟨.passedOver console.machine.fetch, { console with machine := console.machine.pass },
        console.machine.cycle.log ++ [.skipping fault]⟩ := by
  have hmachine := Machine.machine_cycle_of_error hresult
  rw [play, if_neg (Bool.eq_false_iff.1 hwait)]
  simp only [hresult, hmachine, hrecover, beq_self_eq_true, Bool.and_self, if_true]

/-- After any other fault the console keeps the machine as it was and stops. -/
theorem play_of_unrecovered (hwait : console.machine.waiting = false) {fault : Fault}
    (hresult : console.machine.cycle.result = .error fault)
    (hrecover : ¬(fault.isRecoverable = true ∧ console.settings.onUnknown = .pass)) :
    console.play =
      ⟨.stopped fault, { console with fault := some fault },
        console.machine.cycle.log ++ [.halting fault]⟩ := by
  have hmachine := Machine.machine_cycle_of_error hresult
  rw [play, if_neg (Bool.eq_false_iff.1 hwait)]
  simp only [hresult, hmachine, Bool.and_eq_true, beq_iff_eq, hrecover, if_false]

end Play

/-- Every step goes in one of the ways. -/
theorem stepped_step : Stepped console console.step.outcome console.step.console := by
  cases hfault : console.fault with
  | some fault =>
    rw [step_of_fault console hfault]
    exact .frozen hfault
  | none =>
    obtain ⟨houtcome, hconsole⟩ := step_of_no_fault console hfault
    rw [houtcome, hconsole]
    cases hwait : console.deliver.machine.waiting with
    | true =>
      rw [play_of_waiting hwait]
      exact .awaiting hfault hwait
    | false =>
      cases hresult : console.deliver.machine.cycle.result with
      | ok status =>
        rw [play_of_ok hwait hresult]
        exact .ran hfault hwait hresult
      | error fault =>
        by_cases hrecover : fault.isRecoverable = true ∧ console.deliver.settings.onUnknown = .pass
        · rw [play_of_recovered hwait hresult hrecover]
          exact .passed hfault hwait hresult hrecover
        · rw [play_of_unrecovered hwait hresult hrecover]
          exact .halted hfault hwait hresult hrecover

/-- The ways exclude each other, so that a step can be read off its way. -/
theorem step_of_stepped {console after : Console} {outcome : Outcome}
    (h : console.Stepped outcome after) :
    console.step.outcome = outcome ∧ console.step.console = after := by
  cases h with
  | frozen hfault =>
    rw [step_of_fault console hfault]
    exact ⟨rfl, rfl⟩
  | awaiting hfault hwait =>
    obtain ⟨houtcome, hconsole⟩ := step_of_no_fault console hfault
    rw [houtcome, hconsole, play_of_waiting hwait]
    exact ⟨rfl, rfl⟩
  | ran hfault hwait hresult =>
    obtain ⟨houtcome, hconsole⟩ := step_of_no_fault console hfault
    rw [houtcome, hconsole, play_of_ok hwait hresult]
    exact ⟨rfl, rfl⟩
  | passed hfault hwait hresult hrecover =>
    obtain ⟨houtcome, hconsole⟩ := step_of_no_fault console hfault
    rw [houtcome, hconsole, play_of_recovered hwait hresult hrecover]
    exact ⟨rfl, rfl⟩
  | halted hfault hwait hresult hrecover =>
    obtain ⟨houtcome, hconsole⟩ := step_of_no_fault console hfault
    rw [houtcome, hconsole, play_of_unrecovered hwait hresult hrecover]
    exact ⟨rfl, rfl⟩

section Instruction

variable {console : Console} (hfault : console.fault = none)
  (hwait : console.deliver.machine.waiting = false)
include hfault hwait

/-- A step that comes to the instruction that awaits a key. -/
theorem stepped_awaitKey
    (hdecode : DecodingTable.standard.decode? console.deliver.machine.fetch = some .awaitKey) :
    console.Stepped (.ran .waiting)
      { console.deliver with
        machine :=
          { console.deliver.machine.pass with
            waiting := true
            keyRegister := console.deliver.machine.fetch.x } } := by
  have hcycle := Machine.cycle_of_decode hwait hdecode
  rw [Machine.execute_eq] at hcycle
  have hresult : console.deliver.machine.cycle.result = .ok .waiting := by
    rw [hcycle]
    rfl
  have h := Stepped.ran hfault hwait hresult
  rwa [hcycle] at h

/-- A step that comes to a return with no call outstanding. -/
theorem stepped_ret
    (hdecode : DecodingTable.standard.decode? console.deliver.machine.fetch = some .ret)
    (hdepth : console.deliver.machine.calls.depth.val = 0) :
    console.Stepped (.stopped (.callStackEmpty console.deliver.machine.pc))
      { console.deliver with fault := some (.callStackEmpty console.deliver.machine.pc) } := by
  have hresult : console.deliver.machine.cycle.result =
      .error (.callStackEmpty console.deliver.machine.pc) := by
    rw [Machine.cycle_of_decode hwait hdecode, Machine.execute_error_iff, Machine.refusal?,
      if_pos hdepth]
  exact .halted hfault hwait hresult fun h => by cases h.1

end Instruction

/-- A console that awaits a key or has stopped does so again, and stays as it is, until something is
queued. -/
theorem step_step_of_idle
    (h : console.step.outcome = .awaitingKey ∨ ∃ fault, console.step.outcome = .stopped fault) :
    console.step.console.step.outcome = console.step.outcome ∧
      console.step.console.step.console = console.step.console := by
  have hstep := stepped_step console
  -- from an idle console the same way is open again, and no way but that one
  generalize console.step.outcome = outcome at h hstep ⊢
  generalize console.step.console = after at hstep ⊢
  cases hstep with
  | frozen hfault => exact step_of_stepped (.frozen hfault)
  | awaiting hfault hwait =>
    have hagain : console.deliver.Stepped .awaitingKey console.deliver := .awaiting hfault hwait
    exact step_of_stepped hagain
  | ran | passed => simp at h
  | halted => exact step_of_stepped (.frozen rfl)

/-- The console after a number of steps. -/
def afterSteps (console : Console) : Nat → Console
  | 0 => console
  | count + 1 => afterSteps console.step.console count

/-- Where one step changes nothing, no number of steps does. -/
theorem afterSteps_of_still (h : console.step.console = console) (count : Nat) :
    console.afterSteps count = console := by
  induction count with
  | zero => rfl
  | succ count ih => rw [afterSteps, h, ih]

/-! ## Frames -/

/-- Steps that a frame leaves out would have changed nothing. -/
theorem console_steps (frame : FrameRun) (count : Nat) :
    (frame.steps count).console = frame.console.afterSteps count := by
  induction count generalizing frame with
  | zero => rfl
  | succ count ih =>
    rw [FrameRun.steps, afterSteps]
    split
    · exact ih _
    · exact ih _
    -- the frame ends here, while the steps on the other side go on and find the console idle
    · next h => exact (afterSteps_of_still _ (step_step_of_idle _ (.inl h)).2 count).symm
    · next h => exact (afterSteps_of_still _ (step_step_of_idle _ (.inr ⟨_, h⟩)).2 count).symm

/-- A frame is as many steps as the settings say and, unless the console has stopped, a tick. -/
theorem console_frame :
    console.frame.console =
      if console.frame.summary.stopped then console.afterSteps console.settings.frameLength
      else
        { console.afterSteps console.settings.frameLength with
          machine := (console.afterSteps console.settings.frameLength).machine.tick } := by
  rw [← console_steps { console }]
  rfl

/-! ## Runs -/

/-- The console after a list of commands. -/
def run (commands : List Command) : Console :=
  commands.foldl (fun console command => (console.perform command).console) console

/-- Without commands nothing happens. -/
@[simp] theorem run_nil : console.run [] = console := rfl

/-- The first command is performed first. -/
@[simp] theorem run_cons (command : Command) (rest : List Command) :
    console.run (command :: rest) = (console.perform command).console.run rest := rfl

/-- A run that begins with a step goes on from where the step has led. -/
theorem run_step {console after : Console} {outcome : Outcome} (h : console.Stepped outcome after)
    (rest : List Command) : console.run (.step :: rest) = after.run rest := by
  rw [run_cons, perform, (step_of_stepped h).2]

/-- A run can be made in two parts. -/
theorem run_append (first second : List Command) :
    console.run (first ++ second) = (console.run first).run second := by
  rw [run, List.foldl_append]
  rfl

end Console

/-! ## What the machine is given -/

/-- The command by which a key move reaches a machine. -/
def KeyMove.command : KeyMove → Machine.Command
  | down code => .press code
  | up code => .release code

/-- What a machine was given when a step came out so, after the key moves. -/
def Outcome.actions : Outcome → List Machine.Command
  | ran _ => [.cycle]
  | awaitingKey => []
  | passedOver _ => [.cycle, .pass]
  | stopped _ => [.cycle]

namespace Console

/-- What the machine is given in a step. -/
def stepActions (console : Console) : List Machine.Command :=
  match console.fault with
  | some _ => []
  | none => console.queue.map KeyMove.command ++ console.step.outcome.actions

/-- What the machine is given in a number of steps. -/
def stepsActions (console : Console) : Nat → List Machine.Command
  | 0 => []
  | count + 1 => console.stepActions ++ stepsActions console.step.console count

/-- What the machine is given when the console is given a command. -/
def Command.actions (console : Console) : Command → List Machine.Command
  | enqueue _ => []
  | step => console.stepActions
  | frame =>
    console.stepsActions console.settings.frameLength ++
      if console.frame.summary.stopped then [] else [.tick]

/-- What the machine is given when the console is given a list of commands. -/
def actions (console : Console) : List Command → List Machine.Command
  | [] => []
  | command :: rest => command.actions console ++ actions (console.perform command).console rest

end Console

end Chip8
