import Chip8.Proofs.Console.Divergence
import Chip8.Proofs.Machine.TransferMode

/-!
# Settings that count now and then

Two settings decide about single instructions: what to do about an unknown opcode, and how block
transfers work. Until such an instruction is met, they make no difference.

* `unnoticed_setOnUnknown`: only a step that meets an unknown opcode can tell the policy.
* `unnoticed_setTransfer`: only a step that comes to a block transfer can tell the mode.
* `settings_count_where_met`: what that means for histories and runs, and how the policies part.
-/

namespace Chip8

namespace Console

/-- A change that the fault, the queue and the keys do not notice goes unnoticed in a step if it does
so in the instruction. -/
theorem step_of_play {change : Console → Console} {console : Console}
    (hfault : (change console).fault = console.fault)
    (hdeliver : (change console).deliver = change console.deliver)
    (hlog : KeyMove.logAll (change console).machine (change console).queue =
      KeyMove.logAll console.machine console.queue)
    (hplay : console.fault = none → (change console.deliver).play =
      { console.deliver.play with console := change console.deliver.play.console }) :
    (change console).step = { console.step with console := change console.step.console } := by
  rw [step, step, hfault]
  cases h : console.fault with
  | some fault => rfl
  | none =>
    dsimp only
    rw [hdeliver, hplay h, hlog]

/-! ## The policy about unknown opcodes -/

/-- The console with another policy about unknown opcodes. -/
def setOnUnknown (policy : UnknownPolicy) (console : Console) : Console :=
  { console with settings := console.settings.setOnUnknown policy }

/-- The next step fetches an opcode that stands for nothing. -/
structure MeetsUnknown (console : Console) : Prop where
  fault : console.fault = none
  awake : console.deliver.machine.waiting = false
  unknown : DecodingTable.standard.decode? console.deliver.machine.fetch = none

instance : DecidablePred MeetsUnknown := fun console =>
  decidable_of_iff (console.fault = none ∧ console.deliver.machine.waiting = false ∧
      DecodingTable.standard.decode? console.deliver.machine.fetch = none)
    ⟨fun h => ⟨h.1, h.2.1, h.2.2⟩, fun h => ⟨h.fault, h.awake, h.unknown⟩⟩

/-- With a known opcode, or while a key is awaited, both policies do the same. -/
theorem play_setOnUnknown {console : Console} (policy : UnknownPolicy)
    (h : console.machine.waiting = false →
      DecodingTable.standard.decode? console.machine.fetch ≠ none) :
    (console.setOnUnknown policy).play =
      { console.play with console := console.play.console.setOnUnknown policy } := by
  -- the policy is asked after a recoverable fault only, and the machine is the same
  have hmachine : (console.setOnUnknown policy).machine = console.machine := rfl
  cases hwait : console.machine.waiting with
  | true =>
    have hwait' : (console.setOnUnknown policy).machine.waiting = true := hwait
    rw [play_of_waiting hwait, play_of_waiting hwait']
  | false =>
    have hwait' : (console.setOnUnknown policy).machine.waiting = false := hwait
    cases hresult : console.machine.cycle.result with
    | ok status =>
      rw [← hmachine] at hresult
      rw [play_of_ok hwait hresult, play_of_ok hwait' hresult]
      rfl
    -- a known opcode is refused for a fault that no policy passes over
    | error fault =>
      have hfatal : ¬fault.isRecoverable = true :=
        mt (Machine.isRecoverable_iff_of_cycle_error hresult).1 (h hwait)
      rw [← hmachine] at hresult
      rw [play_of_unrecovered hwait hresult (mt And.left hfatal),
        play_of_unrecovered hwait' hresult (mt And.left hfatal)]
      rfl

/-- Only a step that meets an unknown opcode can tell the policy. -/
theorem unnoticed_setOnUnknown (policy : UnknownPolicy) :
    Unnoticed (setOnUnknown policy) MeetsUnknown where
  enqueue _ _ := rfl
  tick _ := rfl
  sounding _ := rfl
  frameLength _ := rfl
  step console h := by
    refine step_of_play rfl rfl rfl fun hfault => ?_
    exact play_setOnUnknown policy fun hwait hdecode => h ⟨hfault, hwait, hdecode⟩

/-- A console that meets an unknown opcode goes past it or stops, by its policy. Either way its machine
has been given the queue and nothing else. -/
theorem MeetsUnknown.stepped {console : Console} (h : console.MeetsUnknown) :
    (console.settings.onUnknown = .pass → console.Stepped
      (.passedOver console.deliver.machine.fetch)
      { console.deliver with machine := console.deliver.machine.pass }) ∧
    (console.settings.onUnknown = .stop → console.Stepped
      (.stopped (.unknownOpcode console.deliver.machine.fetch console.deliver.machine.pc))
      { console.deliver with
        fault := some (.unknownOpcode console.deliver.machine.fetch console.deliver.machine.pc) }) := by
  obtain ⟨hfault, hwait, hdecode⟩ := h
  have hresult : console.deliver.machine.cycle.result =
      .error (.unknownOpcode console.deliver.machine.fetch console.deliver.machine.pc) :=
    (Machine.cycle_error_iff _ _).2 ⟨hwait, .inl ⟨hdecode, rfl⟩⟩
  constructor
  · intro hpass
    exact .passed hfault hwait hresult ⟨rfl, hpass⟩
  · intro hstop
    refine .halted hfault hwait hresult fun hrecover => ?_
    rw [hstop] at hrecover
    cases hrecover.2

/-! ## The transfer mode -/

/-- The console with a machine in another transfer mode, and another mode in its settings. A console
gives the mode in its settings to its machine once, at the start. -/
def setTransfer (mode noted : TransferMode) (console : Console) : Console :=
  { console with
    machine := console.machine.setTransfer mode
    settings := console.settings.setTransfer noted }

/-- The next step comes to a block transfer. -/
structure MovesRun (console : Console) : Prop where
  fault : console.fault = none
  moves : ∃ instruction ∈ Machine.Command.cycle.instruction? console.deliver.machine,
    instruction.1.MovesRun

instance : DecidablePred MovesRun := fun console =>
  decidable_of_iff (console.fault = none ∧
      ∃ instruction ∈ Machine.Command.cycle.instruction? console.deliver.machine,
        instruction.1.MovesRun)
    ⟨fun h => ⟨h.1, h.2⟩, fun h => ⟨h.fault, h.moves⟩⟩

/-- A key move does not look at the transfer mode, and leaves it. -/
theorem keyMove_setTransfer (m : Machine) (mode : TransferMode) (move : KeyMove) :
    move.deliver (m.setTransfer mode) = (move.deliver m).setTransfer mode := by
  cases move with
  | down code => exact Machine.press_setTransfer m mode code
  | up code => rfl

/-- Neither does the delivery of a queue. -/
theorem deliver_setTransfer (console : Console) (mode noted : TransferMode) :
    (console.setTransfer mode noted).deliver = console.deliver.setTransfer mode noted := by
  have hmoves : KeyMove.deliverAll (console.machine.setTransfer mode) console.queue =
      (KeyMove.deliverAll console.machine console.queue).setTransfer mode :=
    List.foldl_hom (Machine.setTransfer · mode) (keyMove_setTransfer · mode ·)
  simp only [deliver, setTransfer, hmoves]

/-- What key moves log is the same in both modes. -/
theorem logAll_setTransfer (m : Machine) (mode : TransferMode) (moves : List KeyMove) :
    KeyMove.logAll (m.setTransfer mode) moves = KeyMove.logAll m moves := by
  induction moves generalizing m with
  | nil => rfl
  | cons move rest ih =>
    have hlog : move.log (m.setTransfer mode) = move.log m := by cases move <;> rfl
    rw [KeyMove.logAll, KeyMove.logAll, hlog, keyMove_setTransfer, ih]

/-- Both modes do the same unless the next instruction is a block transfer. -/
theorem play_setTransfer {console : Console} (mode noted : TransferMode)
    (h : ∀ instruction ∈ Machine.Command.cycle.instruction? console.machine,
      ¬instruction.1.MovesRun) :
    (console.setTransfer mode noted).play =
      { console.play with console := console.play.console.setTransfer mode noted } := by
  have hwaiting : (console.setTransfer mode noted).machine.waiting = console.machine.waiting := rfl
  -- the cycle is the same but for the mode, and what the console does with it depends on the result
  have hcycle : (console.setTransfer mode noted).machine.cycle =
      { console.machine.cycle with machine := console.machine.cycle.machine.setTransfer mode } :=
    Machine.cycle_setTransfer h mode
  have hpolicy : (console.setTransfer mode noted).settings.onUnknown =
    console.settings.onUnknown := rfl
  rw [play, play, hwaiting, hcycle, hpolicy]
  split
  · rfl
  · dsimp only
    split
    · rfl
    · split <;> rfl

/-- Only a step that comes to a block transfer can tell the mode. -/
theorem unnoticed_setTransfer (mode noted : TransferMode) :
    Unnoticed (setTransfer mode noted) MovesRun where
  enqueue _ _ := rfl
  tick _ := rfl
  sounding _ := rfl
  frameLength _ := rfl
  step console h := by
    refine step_of_play rfl (deliver_setTransfer console mode noted)
      (logAll_setTransfer console.machine mode console.queue) fun hfault => ?_
    exact play_setTransfer mode noted fun instruction hmem hmoves =>
      h ⟨hfault, instruction, hmem, hmoves⟩

/-- **Settings count where they are met.** Take two consoles that differ in the policy about unknown
opcodes only, and give them the same commands. Up to the first step that fetches an unknown opcode, and
for ever if there is none, their steps come out the same, they answer alike, and they are the same but
for the policy. At that step one that stops keeps the machine as it was when the queue had been
delivered, and one that passes has that machine past the opcode. The same holds of two consoles that
differ in the transfer mode only, up to the first step that comes to a block transfer. -/
theorem settings_count_where_met :
    (∀ (console : Console) (policy : UnknownPolicy) (commands : List Command),
      SameUntil (setOnUnknown policy) MeetsUnknown console commands) ∧
    (∀ start : Console, start.MeetsUnknown →
      let m := start.deliver.machine
      (start.setOnUnknown .stop).step.outcome = .stopped (.unknownOpcode m.fetch m.pc) ∧
      (start.setOnUnknown .stop).step.console.machine = m ∧
      (start.setOnUnknown .pass).step.outcome = .passedOver m.fetch ∧
      (start.setOnUnknown .pass).step.console.machine = { m with pc := m.pc + 2 }) ∧
    ∀ (console : Console) (mode noted : TransferMode) (commands : List Command),
      SameUntil (setTransfer mode noted) MovesRun console commands := by
  refine ⟨fun console policy => (unnoticed_setOnUnknown policy).sameUntil, ?_,
    fun console mode noted => (unnoticed_setTransfer mode noted).sameUntil⟩
  rintro start ⟨hfault, hwait, hdecode⟩ m
  have hstop : (start.setOnUnknown .stop).MeetsUnknown := ⟨hfault, hwait, hdecode⟩
  have hpass : (start.setOnUnknown .pass).MeetsUnknown := ⟨hfault, hwait, hdecode⟩
  obtain ⟨hstopped, hkept⟩ := step_of_stepped (hstop.stepped.2 rfl)
  obtain ⟨hpassed, hmoved⟩ := step_of_stepped (hpass.stepped.1 rfl)
  rw [hkept, hmoved]
  exact ⟨hstopped, rfl, hpassed, rfl⟩

/-- A program with an unknown opcode after its first instruction, and one that stores a register there,
each played with the other setting as well. -/
theorem settings_met_in_second_step :
    let memory (high low : UInt8) : Memory :=
      (⟨Vector.replicate 4096 0⟩ : Memory).writeAll 0x200 [0x60, 0x05, high, low]
    let machine (high low : UInt8) : Machine :=
      { Machine.fresh .indexed (.ofSeed 0) with memory := memory high low }
    let console (high low : UInt8) : Console :=
      { machine := machine high low, settings := {}, queue := [.down 0x2], fault := none }
    let lost := console 0x5A 0xB1
    let storing := console 0xF0 0x55
    let start := lost.step.console
    start.MeetsUnknown ∧ storing.step.console.MovesRun ∧
      (lost.setOnUnknown .stop).run [.step] = start.setOnUnknown .stop ∧
      (∃ after, (lost.setOnUnknown .stop).history [.frame] =
        (Moment.ofStep lost).map (setOnUnknown .stop) ::
          .ofStep (start.setOnUnknown .stop) :: after) ∧
      (start.setOnUnknown .stop).step.console.machine.pc = 0x202 ∧
      (start.setOnUnknown .pass).step.console.machine.pc = 0x204 ∧
      (storing.setTransfer .standard .standard).run [.step] =
        storing.step.console.setTransfer .standard .standard ∧
      ∃ after, (storing.setTransfer .standard .standard).history [.frame] =
        (Moment.ofStep storing).map (setTransfer .standard .standard) ::
          .ofStep (storing.step.console.setTransfer .standard .standard) :: after := by
  intro memory machine console lost storing start
  obtain ⟨hpolicy, hmeets, hmode⟩ := settings_count_where_met
  have hmet : start.MeetsUnknown := by decide +kernel
  have hmoves : storing.step.console.MovesRun := by decide +kernel
  obtain ⟨-, hkept, -, hmoved⟩ := hmeets start hmet
  have hpc : start.deliver.machine.pc = 0x202 := by decide +kernel
  -- the first step of either program is not critical
  have hlost : ¬lost.MeetsUnknown := by decide +kernel
  have hstoring : ¬storing.MovesRun := by decide +kernel
  have hhistory (c : Console) (hprogress : c.step.outcome.isProgress = true)
      (hlength : c.settings.frameLength = 9) : ∃ after,
      c.history [.frame] = [Moment.ofStep c] ++ .ofStep c.step.console :: after := by
    rw [history, Command.starts, hlength, frameStarts, frameStarts, hprogress]
    exact ⟨_, rfl⟩
  have hstep (critical : Console → Prop) (c : Console) (hc : ¬critical c) :
      ∀ moment ∈ c.history [.step], ¬moment.StartsAt critical :=
    List.forall_mem_cons.2 ⟨hc, List.forall_mem_singleton.2 id⟩
  obtain ⟨after, hafter⟩ := hhistory lost (by decide +kernel) rfl
  obtain ⟨after', hafter'⟩ := hhistory storing (by decide +kernel) rfl
  refine ⟨hmet, hmoves, ((hpolicy lost .stop [.step]).always (hstep _ lost hlost)).2, ?_, ?_, ?_,
    ((hmode storing .standard .standard [.step]).always (hstep _ storing hstoring)).2, ?_⟩
  · exact (hpolicy lost .stop [.frame]).part _ _ _ hafter (List.forall_mem_singleton.2 hlost) hmet
  · rw [hkept, hpc]
  · rw [hmoved, hpc]
    rfl
  · exact (hmode storing .standard .standard [.frame]).part _ _ _ hafter'
      (List.forall_mem_singleton.2 hstoring) hmoves

end Console

end Chip8
