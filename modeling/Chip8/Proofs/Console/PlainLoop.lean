import Chip8.Proofs.Console.Delivery

/-!
# Frames as plain loops

A frame ends at the first step that finds a key awaited or the console stopped. It might as well go
on: every further step would come out the same and change nothing. So a frame is the plain loop of
all its steps, and its summary is a summary of their outcomes (`outcomes`).

* `tally_steps`: what a frame under way has noted are the outcomes so far.
* `any_isStopped_outcomes`: some step comes out stopped exactly if a fault is there at the end.
* `frame_is_plain_loop`: a frame, its summary and its tick, by the plain loop.
-/

namespace Chip8

/-- Settings that are made from the default ones by the functions that change one of them. -/
inductive Settings.Built : Settings → Prop where
  | default : Built {}
  | setTransfer {s : Settings} (h : Built s) (mode : TransferMode) : Built (s.setTransfer mode)
  | setOnUnknown {s : Settings} (h : Built s) (policy : UnknownPolicy) : Built (s.setOnUnknown policy)
  | setFrameLength {s : Settings} (h : Built s) (length : Nat) : Built (s.setFrameLength length)
  | setSeed {s : Settings} (h : Built s) (seed : UInt64) : Built (s.setSeed seed)
  | setMagnification {s : Settings} (h : Built s) (magnification : Nat) :
      Built (s.setMagnification magnification)

/-- Frames of built settings have at least one step. -/
theorem Settings.Built.frameLength_pos {s : Settings} (h : s.Built) : 1 ≤ s.frameLength := by
  induction h with
  | default => decide
  | setFrameLength h length ih => exact Nat.le_max_right length 1
  | setTransfer h mode ih => exact ih
  | setOnUnknown h policy ih => exact ih
  | setSeed h seed ih => exact ih
  | setMagnification h magnification ih => exact ih

/-- A machine sounds as long as its sound timer is not down to zero. -/
theorem Machine.isSounding_iff (m : Machine) : m.isSounding = true ↔ 0 < m.sound := by
  rw [isSounding, bne_iff_ne, UInt8.pos_iff_ne_zero]

namespace Outcome

/-- Whether an instruction was carried out or passed over. -/
def isProgress : Outcome → Bool
  | ran _ | passedOver _ => true
  | _ => false

/-- Whether the console has stopped. -/
def isStopped : Outcome → Bool
  | stopped _ => true
  | _ => false

/-- A step gets on if it neither finds a key awaited nor ends in a fault. -/
theorem isProgress_iff (outcome : Outcome) :
    outcome.isProgress = true ↔ outcome ≠ .awaitingKey ∧ ∀ fault, outcome ≠ .stopped fault := by
  cases outcome <;> simp [isProgress]

/-- An outcome is a stop if there is a fault in it. -/
theorem isStopped_iff (outcome : Outcome) :
    outcome.isStopped = true ↔ ∃ fault, outcome = .stopped fault := by
  cases outcome <;> simp [isStopped]

end Outcome

namespace Console

/-- What comes of a number of steps, in order. -/
def outcomes (console : Console) : Nat → List Outcome
  | 0 => []
  | count + 1 => console.step.outcome :: outcomes console.step.console count

/-- Each step has one outcome. -/
@[simp] theorem length_outcomes (console : Console) (count : ℕ) :
    (console.outcomes count).length = count := by
  induction count generalizing console with
  | zero => rfl
  | succ count ih => rw [outcomes, List.length_cons, ih]

section Outcomes

variable {console : Console}

/-- Steps that change nothing come out alike. -/
theorem outcomes_of_still (h : console.step.console = console) (count : ℕ) :
    console.outcomes count = List.replicate count console.step.outcome := by
  induction count with
  | zero => rfl
  | succ count ih => rw [outcomes, h, ih, List.replicate_succ]

/-- Once a step has found a key awaited or the console stopped, all further ones do. -/
theorem outcomes_of_idle
    (h : console.step.outcome = .awaitingKey ∨ ∃ fault, console.step.outcome = .stopped fault)
    (count : ℕ) : console.outcomes (count + 1) = List.replicate (count + 1) console.step.outcome := by
  obtain ⟨houtcome, hconsole⟩ := step_step_of_idle console h
  rw [outcomes, outcomes_of_still hconsole, houtcome, List.replicate_succ]

/-- A step comes out stopped exactly if there is a fault after it. -/
theorem isStopped_step (console : Console) :
    console.step.outcome.isStopped = console.step.console.fault.isSome := by
  have hstep := stepped_step console
  generalize console.step.outcome = outcome at hstep ⊢
  generalize console.step.console = after at hstep ⊢
  cases hstep with
  | frozen hfault =>
    rw [hfault]
    rfl
  | halted => rfl
  | awaiting hfault | ran hfault | passed hfault =>
    change false = console.fault.isSome
    rw [hfault]
    rfl

/-- Some step comes out stopped exactly if there is a fault at the end. -/
theorem any_isStopped_outcomes (console : Console) (count : ℕ) :
    (console.outcomes (count + 1)).any Outcome.isStopped =
      (console.afterSteps (count + 1)).fault.isSome := by
  induction count generalizing console with
  | zero => simp only [outcomes, afterSteps, List.any_cons, List.any_nil, Bool.or_false,
      isStopped_step]
  | succ count ih =>
    have hafter : console.afterSteps (count + 2) =
      console.step.console.afterSteps (count + 1) := rfl
    rw [outcomes, List.any_cons, isStopped_step, ih, hafter]
    -- a fault after the first step is there at the end as well
    cases hfault : console.step.console.fault with
    | none => rfl
    | some fault =>
      rw [afterSteps_of_fault hfault, hfault]
      rfl

end Outcomes

/-! ## What a frame notes -/

/-- What has been noted of steps that came out so. -/
structure Tally (before : FrameRun) (outcomes : List Outcome) (after : FrameRun) : Prop where
  instructions : after.instructions = before.instructions + outcomes.countP Outcome.isProgress
  redrawn : after.redrawn = (before.redrawn || outcomes.contains (.ran .redraw))
  stopped : after.stopped = (before.stopped || outcomes.any Outcome.isStopped)

/-- A frame that is ended early has noted all that it would have noted. -/
theorem tally_steps (frame : FrameRun) (count : ℕ) :
    Tally frame (frame.console.outcomes count) (frame.steps count) := by
  induction count generalizing frame with
  | zero => exact ⟨rfl, (Bool.or_false _).symm, (Bool.or_false _).symm⟩
  | succ count ih =>
    -- one case an outcome: a step that gets on is noted and the rest follows, any other one ends the
    -- frame
    rw [FrameRun.steps]
    split
    · next status h =>
      rw [outcomes, h]
      obtain ⟨hinstructions, hredrawn, hstopped⟩ := ih { frame with
        console := frame.console.step.console
        instructions := frame.instructions + 1
        redrawn := frame.redrawn || status == .redraw
        log := frame.log ++ frame.console.step.log }
      constructor
      · rw [hinstructions, List.countP_cons_of_pos rfl, Nat.add_assoc, Nat.add_comm 1]
      · rw [hredrawn, List.contains_cons, Bool.or_assoc]
        cases status <;> rfl
      · rw [hstopped]
        rfl
    · next opcode h =>
      rw [outcomes, h]
      obtain ⟨hinstructions, hredrawn, hstopped⟩ := ih { frame with
        console := frame.console.step.console
        instructions := frame.instructions + 1
        log := frame.log ++ frame.console.step.log }
      constructor
      · rw [hinstructions, List.countP_cons_of_pos rfl, Nat.add_assoc, Nat.add_comm 1]
      · rw [hredrawn, List.contains_cons]
        rfl
      · rw [hstopped]
        rfl
    -- from here on the plain loop repeats itself, and adds nothing to the counts
    · next h =>
      rw [outcomes_of_idle (.inl h), h]
      constructor <;> simp [List.countP_replicate, Outcome.isProgress, Outcome.isStopped]
    · next fault h =>
      rw [outcomes_of_idle (.inr ⟨fault, h⟩), h]
      constructor <;> simp [List.countP_replicate, Outcome.isProgress, Outcome.isStopped]

/-- The summary of a frame is a summary of the outcomes of the plain loop. -/
theorem summary_frame (console : Console) :
    console.frame.summary =
      { instructions := (console.outcomes console.settings.frameLength).countP Outcome.isProgress
        redrawn := (console.outcomes console.settings.frameLength).contains (.ran .redraw)
        sounding := console.frame.console.machine.isSounding
        stopped := (console.outcomes console.settings.frameLength).any Outcome.isStopped } := by
  obtain ⟨hinstructions, hredrawn, hstopped⟩ :=
    tally_steps { console } console.settings.frameLength
  rw [Nat.zero_add] at hinstructions
  rw [Bool.false_or] at hredrawn hstopped
  rw [← hinstructions, ← hredrawn, ← hstopped]
  rfl

/-- A frame of at least one step tells of a stop just if there is a fault after its steps. -/
theorem stopped_frame {console : Console} (h : 1 ≤ console.settings.frameLength) :
    console.frame.summary.stopped =
      (console.afterSteps console.settings.frameLength).fault.isSome := by
  obtain ⟨count, hcount⟩ := Nat.exists_eq_add_of_le' h
  rw [summary_frame, hcount]
  exact any_isStopped_outcomes console count

/-- A frame is the plain loop, and a tick unless there is a fault at its end. -/
theorem console_frame_of_pos {console : Console} (h : 1 ≤ console.settings.frameLength) :
    console.frame.console =
      if (console.afterSteps console.settings.frameLength).fault.isSome then
        console.afterSteps console.settings.frameLength
      else
        { console.afterSteps console.settings.frameLength with
          machine := (console.afterSteps console.settings.frameLength).machine.tick } := by
  rw [console_frame, stopped_frame h]

/-! ## Ticks -/

/-- A step gives the machine no tick. -/
theorem tick_not_mem_stepActions (console : Console) :
    Machine.Command.tick ∉ console.stepActions := by
  rw [stepActions]
  cases console.fault with
  | some fault => exact List.not_mem_nil
  | none =>
    simp only [List.mem_append, List.mem_map, not_or, not_exists, not_and]
    constructor
    · intro move _
      cases move <;> simp [KeyMove.command]
    · cases console.step.outcome <;> simp [Outcome.actions]

/-- Nor do any number of steps. -/
theorem tick_not_mem_stepsActions (console : Console) (count : ℕ) :
    Machine.Command.tick ∉ console.stepsActions count := by
  induction count generalizing console with
  | zero => exact List.not_mem_nil
  | succ count ih =>
    rw [stepsActions, List.mem_append]
    exact not_or.2 ⟨tick_not_mem_stepActions console, ih _⟩

/-- A frame that does not stop gives its machine one tick, a frame that stops none. -/
theorem count_tick_frame (console : Console) :
    (Command.frame.actions console).count .tick =
      if console.frame.summary.stopped then 0 else 1 := by
  rw [Command.actions, List.count_append,
    List.count_eq_zero_of_not_mem (tick_not_mem_stepsActions console _), Nat.zero_add]
  split <;> rfl

/-! ## Waiting for a whole frame -/

/-- A step that finds a key awaited has delivered the queue, and that is all. -/
theorem step_of_awaitingKey {console : Console} (h : console.step.outcome = .awaitingKey) :
    console.step.console = console.deliver ∧ console.fault = none := by
  have hstep := stepped_step console
  rw [h] at hstep
  generalize console.step.console = after at hstep ⊢
  cases hstep with
  | awaiting hfault => exact ⟨rfl, hfault⟩

/-- A frame that is spent waiting delivers the queue and ticks. -/
theorem console_frame_of_awaitingKey {console : Console} (hlength : 1 ≤ console.settings.frameLength)
    (h : console.step.outcome = .awaitingKey) :
    console.frame.console =
      { console.deliver with machine := console.deliver.machine.tick } := by
  obtain ⟨count, hcount⟩ := Nat.exists_eq_add_of_le' hlength
  obtain ⟨hconsole, hfault⟩ := step_of_awaitingKey h
  have hstill := (step_step_of_idle console (.inl h)).2
  have hafter : console.afterSteps (count + 1) = console.deliver := by
    rw [afterSteps, afterSteps_of_still _ hstill, hconsole]
  have hnone : console.deliver.fault = none := hfault
  rw [console_frame_of_pos hlength, hcount, hafter, hnone]
  rfl

/-- **A frame is its plain loop.** Built settings have frames of at least one step. Such a frame
leaves the console as all its steps in a row do, with a tick unless there is a fault then; its
summary counts and classifies their outcomes; and a machine that awaits a key throughout is given the
queue and the tick. -/
theorem frame_is_plain_loop :
    (∀ settings : Settings, settings.Built → 1 ≤ settings.frameLength) ∧
    ∀ console : Console, 1 ≤ console.settings.frameLength →
      let count := console.settings.frameLength
      let after := console.afterSteps count
      let outcomes := console.outcomes count
      let summary := console.frame.summary
      console.frame.console =
        (if after.fault.isSome then after else { after with machine := after.machine.tick }) ∧
      summary.instructions = outcomes.countP Outcome.isProgress ∧
      summary.instructions ≤ count ∧
      (summary.instructions = count ↔
        ∀ outcome ∈ outcomes, outcome ≠ .awaitingKey ∧ ∀ fault, outcome ≠ .stopped fault) ∧
      (summary.redrawn = true ↔ .ran .redraw ∈ outcomes) ∧
      (summary.stopped = true ↔ ∃ fault, .stopped fault ∈ outcomes) ∧
      (summary.sounding = true ↔ 0 < console.frame.console.machine.sound) ∧
      (console.frame.console.machine = console.machine.run (Command.frame.actions console) ∧
        (Command.frame.actions console).count .tick = if summary.stopped then 0 else 1) ∧
      ((∀ outcome ∈ outcomes, outcome = .awaitingKey) →
        console.frame.console =
          { console.deliver with machine := console.deliver.machine.tick }) := by
  refine ⟨fun settings hbuilt => hbuilt.frameLength_pos, ?_⟩
  intro console hlength count after outcomes summary
  have hsummary : summary = _ := summary_frame console
  have hinstructions : summary.instructions = outcomes.countP Outcome.isProgress := by
    rw [hsummary]
  have hstopped : summary.stopped = outcomes.any Outcome.isStopped := by rw [hsummary]
  -- the bound and the case that it is reached are facts about a count over so many outcomes
  have hlist : outcomes.length = count := length_outcomes console count
  refine ⟨console_frame_of_pos hlength, hinstructions, ?_, ?_, ?_, ?_, ?_,
    ⟨(account_frame console).machine, count_tick_frame console⟩, ?_⟩
  · rw [hinstructions, ← hlist]
    exact List.countP_le_length
  · rw [hinstructions, ← hlist, List.countP_eq_length]
    exact forall₂_congr fun outcome _ => Outcome.isProgress_iff outcome
  · rw [hsummary]
    exact List.contains_iff_mem
  · rw [hstopped, List.any_eq_true]
    constructor
    · rintro ⟨outcome, hmem, h⟩
      obtain ⟨fault, rfl⟩ := (Outcome.isStopped_iff outcome).1 h
      exact ⟨fault, hmem⟩
    · rintro ⟨fault, hmem⟩
      exact ⟨_, hmem, rfl⟩
  · rw [hsummary]
    exact Machine.isSounding_iff _
  · intro hawaiting
    obtain ⟨rest, hrest⟩ := Nat.exists_eq_add_of_le' hlength
    have hmem : console.step.outcome ∈ outcomes := by
      simp only [outcomes, count, hrest, Console.outcomes, List.mem_cons, true_or]
    exact console_frame_of_awaitingKey hlength (hawaiting _ hmem)

/-- A frame of a machine that awaits a key throughout, while a key is let up: nothing is carried out,
and the timers tick once. -/
theorem frame_spent_waiting :
    let machine : Machine := { Machine.fresh .indexed (.ofSeed 0) with waiting := true, delay := 5 }
    let console : Console := { machine, settings := {}, queue := [.up 0x3], fault := none }
    console.settings.Built ∧ 1 ≤ console.settings.frameLength ∧
      (∀ outcome ∈ console.outcomes 9, outcome = .awaitingKey) ∧
      console.frame.summary.instructions = 0 ∧ console.frame.console.machine.delay = 4 := by
  intro machine console
  have hbuilt : console.settings.Built := .default
  have hlength : 1 ≤ console.settings.frameLength := frame_is_plain_loop.1 _ hbuilt
  have hawaiting : ∀ outcome ∈ console.outcomes 9, outcome = .awaitingKey := by decide
  obtain ⟨-, hinstructions, -, -, -, -, -, -, hconsole⟩ := frame_is_plain_loop.2 console hlength
  refine ⟨hbuilt, hlength, hawaiting, ?_, ?_⟩
  · rw [hinstructions]
    decide
  · rw [hconsole hawaiting]
    decide

end Console

end Chip8
