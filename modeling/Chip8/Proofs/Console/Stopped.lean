import Chip8.Proofs.Console.PlainLoop

/-!
# Stopped consoles

A console keeps the fault that has stopped it, and the fault keeps telling the truth: the machine is
still about to run into it (`Stands`). That is so when the fault is noted, because a refused
instruction leaves no trace, and it stays so because nothing is done to the machine any more.

* `faultStands_step`, `faultStands_perform`, `faultStands_run`: the fault of a console stands.
* `step_of_fault`, `frame_of_fault`, `frozen_run`: nothing happens to a console that has stopped.
* `stopped_console_is_frozen`: both, for every console that has been played from the start.
-/

namespace Chip8

namespace Fault

/-- What a fault says about a machine that runs into it now. -/
def Describes (m : Machine) : Fault → Prop
  | unknownOpcode opcode pc => opcode = m.fetch ∧ pc = m.pc
  | callStackFull pc => pc = m.pc ∧ m.calls.depth.val = 16
  | callStackEmpty pc => pc = m.pc ∧ m.calls.depth.val = 0
  | windowOverrun first count =>
    first = m.index ∧ count = m.fetch.x + 1 ∧ 16 < first.toNat + count

/-- The fault of a cycle describes the machine. -/
theorem describes_of_cycle_error {m : Machine} {fault : Fault}
    (h : m.cycle.result = .error fault) : fault.Describes m := by
  obtain ⟨-, ⟨-, rfl⟩ | ⟨operation, -, herror⟩⟩ := (Machine.cycle_error_iff m fault).1 h
  · exact ⟨rfl, rfl⟩
  · rw [Machine.execute_error_iff, Machine.refusal?_eq_some_iff] at herror
    rcases herror with ⟨-, hdepth, rfl⟩ | ⟨-, hdepth, rfl⟩ | ⟨-, -, hlong, rfl⟩
    · exact ⟨rfl, hdepth⟩
    · exact ⟨rfl, hdepth⟩
    · exact ⟨rfl, rfl, hlong⟩

end Fault

namespace Console

/-- What has to be true of a fault that a console has stopped for. -/
structure Stands (console : Console) (fault : Fault) : Prop where
  awake : console.machine.waiting = false
  refused : console.machine.cycle.result = .error fault
  unrecovered : ¬(fault.isRecoverable = true ∧ console.settings.onUnknown = .pass)

/-- The fault of a console stands, if it has one. -/
def FaultStands (console : Console) : Prop :=
  ∀ fault, console.fault = some fault → console.Stands fault

section FaultStands

variable {console : Console}

/-- Without a fault nothing has to be true. -/
theorem faultStands_of_none (h : console.fault = none) : console.FaultStands := by
  intro fault hfault
  rw [h] at hfault
  cases hfault

/-! ## Settings stay -/

/-- A step leaves the settings alone. -/
theorem settings_step (console : Console) :
    console.step.console.settings = console.settings := by
  have hstep := stepped_step console
  generalize console.step.outcome = outcome at hstep
  generalize console.step.console = after at hstep ⊢
  cases hstep with
  | frozen | awaiting | ran | passed | halted => rfl

/-- So do any number of steps. -/
theorem settings_afterSteps (console : Console) (count : ℕ) :
    (console.afterSteps count).settings = console.settings := by
  induction count generalizing console with
  | zero => rfl
  | succ count ih => rw [afterSteps, ih, settings_step]

/-- So does a command. -/
theorem settings_perform (console : Console) (command : Command) :
    (console.perform command).console.settings = console.settings := by
  cases command with
  | enqueue move => rfl
  | step => exact settings_step console
  | frame =>
    rw [perform, console_frame]
    split
    · exact settings_afterSteps console _
    · exact settings_afterSteps console _

/-- The settings of a console stay for ever. -/
theorem settings_run (console : Console) (commands : List Command) :
    (console.run commands).settings = console.settings := by
  induction commands generalizing console with
  | nil => rfl
  | cons command rest ih => exact (ih _).trans (settings_perform console command)

/-! ## The fault stands -/

/-- **One step.** A fault that stands is kept, and a new one is the one that the machine has just
run into without a trace. -/
theorem faultStands_step (h : console.FaultStands) : console.step.console.FaultStands := by
  have hstep := stepped_step console
  generalize console.step.outcome = outcome at hstep
  generalize console.step.console = after at hstep ⊢
  cases hstep with
  | frozen => exact h
  | awaiting hfault | ran hfault | passed hfault => exact faultStands_of_none hfault
  | halted hfault hwait hresult hrecover =>
    -- the fault is new: it is that of the cycle just made, which has left the machine as it was
    rintro fault ⟨⟩
    exact ⟨hwait, hresult, hrecover⟩

/-- The fault still stands after any number of steps. -/
theorem faultStands_afterSteps (h : console.FaultStands) (count : ℕ) :
    (console.afterSteps count).FaultStands := by
  induction count generalizing console with
  | zero => exact h
  | succ count ih => exact ih (faultStands_step h)

/-- **One command.** A frame of at least one step does not tick after a fault, so that the fault still
stands. -/
theorem faultStands_perform (hlength : 1 ≤ console.settings.frameLength) (h : console.FaultStands)
    (command : Command) : (console.perform command).console.FaultStands := by
  cases command with
  | enqueue move =>
    intro fault hfault
    obtain ⟨hawake, hrefused, hunrecovered⟩ := h fault hfault
    exact ⟨hawake, hrefused, hunrecovered⟩
  | step => exact faultStands_step h
  | frame =>
    rw [perform, console_frame_of_pos hlength]
    split
    · exact faultStands_afterSteps h _
    · next hnone => exact faultStands_of_none (Option.not_isSome_iff_eq_none.1 hnone)

/-- **A whole run.** -/
theorem faultStands_run (hlength : 1 ≤ console.settings.frameLength) (h : console.FaultStands)
    (commands : List Command) : (console.run commands).FaultStands := by
  induction commands generalizing console with
  | nil => exact h
  | cons command rest ih =>
    refine ih ?_ (faultStands_perform hlength h command)
    rw [settings_perform]
    exact hlength

end FaultStands

/-! ## Nothing happens any more -/

section Frozen

variable {console : Console} {fault : Fault} (hlength : 1 ≤ console.settings.frameLength)
  (hfault : console.fault = some fault)
include hlength hfault

/-- A frame of a console that has stopped does nothing, and says so. -/
theorem frame_of_fault :
    console.frame =
      { summary :=
          { instructions := 0
            redrawn := false
            sounding := console.machine.isSounding
            stopped := true }
        console
        log := [] } := by
  obtain ⟨count, hcount⟩ := Nat.exists_eq_add_of_le' hlength
  simp only [frame, hcount, FrameRun.steps, step_of_fault console hfault, FrameRun.finish]
  rfl

/-- A command does nothing to the machine of a console that has stopped. -/
theorem frozen_perform (command : Command) :
    (console.perform command).console.machine = console.machine ∧
      (console.perform command).console.fault = some fault := by
  cases command with
  | enqueue move => exact ⟨rfl, hfault⟩
  | step =>
    rw [perform, step_of_fault console hfault]
    exact ⟨rfl, hfault⟩
  | frame =>
    rw [perform, frame_of_fault hlength hfault]
    exact ⟨rfl, hfault⟩

/-- Nor does a whole run. -/
theorem frozen_run (commands : List Command) :
    (console.run commands).machine = console.machine ∧
      (console.run commands).fault = some fault := by
  induction commands generalizing console with
  | nil => exact ⟨rfl, hfault⟩
  | cons command rest ih =>
    -- the fault and the frame length are still there for the rest of the run
    obtain ⟨hmachine, hkept⟩ := frozen_perform hlength hfault command
    have hlength' : 1 ≤ (console.perform command).console.settings.frameLength := by
      rw [settings_perform]
      exact hlength
    obtain ⟨hmachine', hkept'⟩ := ih hlength' hkept
    exact ⟨hmachine'.trans hmachine, hkept'⟩

end Frozen

/-- **A stopped console is frozen, and its fault can be reproduced.** Take any console that has been
played from the start with frames of at least one step, and has stopped. Its fault is one that its
settings do not pass over; its machine awaits no key and runs into the very same fault again, which
describes it as it stands; and whatever is done to the console, the machine and the fault stay, each
step comes out stopped and each frame comes out empty. -/
theorem stopped_console_is_frozen (settings : Settings) (entropy : ChaCha.Key) (start : Console)
    (hstart : start = ofSettings settings entropy ∨
      ∃ program, start = ofProgram settings entropy program)
    (hlength : 1 ≤ settings.frameLength) (commands : List Command) (fault : Fault)
    (hfault : (start.run commands).fault = some fault) :
    let console := start.run commands
    (fault.isRecoverable = false ∨ settings.onUnknown = .stop) ∧
    console.machine.waiting = false ∧
    console.machine.cycle.result = .error fault ∧ console.machine.cycle.machine = console.machine ∧
    fault.Describes console.machine ∧
    (∀ more, (console.run more).machine = console.machine ∧ (console.run more).fault = some fault ∧
      (console.run more).step.outcome = .stopped fault ∧
      (console.run more).frame.summary =
        { instructions := 0
          redrawn := false
          sounding := decide (0 < console.machine.sound)
          stopped := true }) ∧
    (settings.onUnknown = .pass → ∀ opcode pc, fault ≠ .unknownOpcode opcode pc) := by
  intro console
  have hsettings : start.settings = settings ∧ start.fault = none := by
    rcases hstart with rfl | ⟨program, rfl⟩
    · exact ⟨rfl, rfl⟩
    · exact ⟨rfl, rfl⟩
  obtain ⟨hsettings, hnone⟩ := hsettings
  have hkept : console.settings = settings := (settings_run start commands).trans hsettings
  have hlength' : 1 ≤ console.settings.frameLength := by rwa [hkept]
  obtain ⟨hwait, hrefused, hunrecovered⟩ : console.Stands fault :=
    faultStands_run (hsettings ▸ hlength) (faultStands_of_none hnone) commands fault hfault
  -- otherwise the console would have gone past it
  have hfatal : fault.isRecoverable = false ∨ settings.onUnknown = .stop := by
    rw [hkept] at hunrecovered
    cases hrecover : fault.isRecoverable with
    | false => exact .inl rfl
    | true =>
      cases hpolicy : settings.onUnknown with
      | stop => exact .inr rfl
      | pass => exact absurd ⟨hrecover, hpolicy⟩ hunrecovered
  refine ⟨hfatal, hwait, hrefused, Machine.machine_cycle_of_error hrefused,
    Fault.describes_of_cycle_error hrefused, ?_, ?_⟩
  · intro more
    obtain ⟨hmachine, hstill⟩ := frozen_run hlength' hfault more
    have hlength'' : 1 ≤ (console.run more).settings.frameLength := by rwa [settings_run]
    have hsounding : console.machine.isSounding = decide (0 < console.machine.sound) :=
      Bool.eq_iff_iff.2 ((Machine.isSounding_iff _).trans (decide_eq_true_iff).symm)
    rw [step_of_fault _ hstill, frame_of_fault hlength'' hstill, hmachine, hsounding]
    exact ⟨rfl, hstill, rfl, rfl⟩
  · rintro hpass opcode pc rfl
    rcases hfatal with hfatal | hstop
    · cases hfatal
    · rw [hpass] at hstop
      cases hstop

/-- A program that returns without a call stops its console, which then ignores a frame with a key
press queued. -/
theorem lone_return_is_frozen :
    let start := ofProgram {} (Vector.replicate 8 0) ⟨#[0x00, 0xEE], by decide⟩
    let console := start.run [.step]
    1 ≤ start.settings.frameLength ∧ console.fault = some (.callStackEmpty 0x200) ∧
      console.machine.cycle.result = .error (.callStackEmpty 0x200) ∧
      (console.run [.enqueue (.down 0x7), .frame]).machine = console.machine := by
  intro start console
  have hlength : 1 ≤ start.settings.frameLength := by decide
  have hfetch : start.deliver.machine.fetch = ⟨0x00EE⟩ := by
    have hhigh : (Memory.cell 0x200).val = 0x200 := by decide
    have hlow : (Memory.cell (0x200 + 1)).val = 0x201 := by decide
    change Opcode.mk ((Memory.initial.install #[0x00, 0xEE]).word 0x200) = _
    rw [Memory.word, Memory.read_install, Memory.read_install, hhigh, hlow]
    simp [Memory.programStart]
  have hdecode : DecodingTable.standard.decode? start.deliver.machine.fetch = some .ret := by
    rw [hfetch]
    decide
  have hresult : start.deliver.machine.cycle.result = .error (.callStackEmpty 0x200) := by
    rw [Machine.cycle_of_decode rfl hdecode, Machine.execute_error_iff]
    rfl
  have hstopped : start.Stepped (.stopped (.callStackEmpty 0x200))
      { start.deliver with fault := some (.callStackEmpty 0x200) } :=
    .halted rfl rfl hresult (by decide)
  have hfault : console.fault = some (.callStackEmpty 0x200) := by
    rw [show console = _ from run_cons start .step [], run_nil, perform, (step_of_stepped hstopped).2]
  obtain ⟨-, -, hcycle, -, -, hfrozen, -⟩ := stopped_console_is_frozen {} (Vector.replicate 8 0) start
    (.inr ⟨_, rfl⟩) hlength [.step] _ hfault
  obtain ⟨hmachine, -⟩ := hfrozen [.enqueue (.down 0x7), .frame]
  exact ⟨hlength, hfault, hcycle, hmachine⟩

end Console

end Chip8
