import Chip8.Proofs.Console.PlainLoop

/-!
# Where two consoles part

Two consoles that differ in one setting are given the same commands. They go the same way until they
come to a step at which the setting counts, and there they may part.

What a run comes to is its `history`: the steps that are made, within frames and outside, and the
answers. That a `change` to a console goes unnoticed except at `critical` steps is a matter of single
steps (`Unnoticed`). It follows for frames (`Unnoticed.frame`), for commands and for whole runs
(`Unnoticed.sameUntil`): the history of the changed console is the changed history up to the first
critical step, and altogether if there is none.
-/

namespace Chip8

/-! ## The steps of a frame -/

/-- The consoles at the beginning of the steps of a frame: it ends early after a step that carries out
nothing. -/
def Console.frameStarts (console : Console) : Nat → List Console
  | 0 => []
  | count + 1 =>
    console ::
      if console.step.outcome.isProgress then frameStarts console.step.console count else []

/-- A frame under way after one more step. -/
def FrameRun.note (run : FrameRun) (step : Step) : FrameRun where
  console := step.console
  instructions := if step.outcome.isProgress then run.instructions + 1 else run.instructions
  redrawn := run.redrawn || step.outcome == .ran .redraw
  stopped := run.stopped || step.outcome.isStopped
  log := run.log ++ step.log

/-- What a frame notes are its steps, one after the other. -/
theorem FrameRun.steps_eq_foldl (run : FrameRun) (count : ℕ) :
    run.steps count =
      (run.console.frameStarts count).foldl (fun run start => run.note start.step) run := by
  induction count generalizing run with
  | zero => rfl
  | succ count ih =>
    rw [steps, Console.frameStarts, List.foldl_cons]
    split
    -- one case an outcome: the first two go on with the rest of the steps, the others end the frame
    · next status h =>
      have hnote : run.note run.console.step =
          { run with
            console := run.console.step.console
            instructions := run.instructions + 1
            redrawn := run.redrawn || status == .redraw
            log := run.log ++ run.console.step.log } := by
        simp only [note, h, Outcome.isProgress, Outcome.isStopped, if_true, Bool.or_false]
        cases status <;> rfl
      rw [hnote, ih, h]
      rfl
    · next opcode h =>
      have hnote : run.note run.console.step =
          { run with
            console := run.console.step.console
            instructions := run.instructions + 1
            log := run.log ++ run.console.step.log } := by
        simp [note, h, Outcome.isProgress, Outcome.isStopped]
      rw [hnote, ih, h]
      rfl
    · next h => simp [note, h, Outcome.isProgress, Outcome.isStopped]
    · next fault h => simp [note, h, Outcome.isProgress, Outcome.isStopped]

namespace Console

/-! ## Histories -/

/-- Something that happens in a run of a console. -/
inductive Moment where
  /-- A step, by itself or in a frame. -/
  | step (before : Console) (outcome : Outcome) (after : Console)
  /-- A command has been performed and is answered. -/
  | answer (reply : Reply) (after : Console)

namespace Moment

/-- What happens at a step. -/
def ofStep (start : Console) : Moment :=
  .step start start.step.outcome start.step.console

/-- The same outcome or answer, from other consoles. -/
def map (change : Console → Console) : Moment → Moment
  | step before outcome after => .step (change before) outcome (change after)
  | answer reply after => .answer reply (change after)

/-- A step from a console of a certain kind. -/
def StartsAt (critical : Console → Prop) : Moment → Prop
  | step before _ _ => critical before
  | answer _ _ => False

instance (critical : Console → Prop) [DecidablePred critical] :
    DecidablePred (StartsAt critical)
  | step before _ _ => inferInstanceAs (Decidable (critical before))
  | answer _ _ => inferInstanceAs (Decidable False)

end Moment

/-- The consoles at the beginning of the steps that a command makes. -/
def Command.starts (console : Console) : Command → List Console
  | enqueue _ => []
  | step => [console]
  | frame => console.frameStarts console.settings.frameLength

/-- What happens in a run: for each command its steps, then its answer. -/
def history (console : Console) : List Command → List Moment
  | [] => []
  | command :: rest =>
    (command.starts console).map .ofStep ++
      .answer (console.perform command).reply (console.perform command).console ::
        history (console.perform command).console rest

/-- Two histories of which the second one is the first one changed, up to the first critical step.
There the steps start from consoles that are still the same but for the change. -/
inductive AgreeUntil (change : Console → Console) (critical : Console → Prop) :
    List Moment → List Moment → Prop where
  | nil : AgreeUntil change critical [] []
  | cons {moment : Moment} {first second : List Moment} (h : ¬moment.StartsAt critical)
      (hrest : AgreeUntil change critical first second) :
      AgreeUntil change critical (moment :: first) (moment.map change :: second)
  | part {start : Console} (h : critical start) (first second : List Moment) :
      AgreeUntil change critical (.ofStep start :: first) (.ofStep (change start) :: second)

section AgreeUntil

variable {change : Console → Console} {critical : Console → Prop} {first second : List Moment}

/-- Without a critical step the second history is the first one changed. -/
theorem AgreeUntil.eq_map (h : AgreeUntil change critical first second)
    (hnone : ∀ moment ∈ first, ¬moment.StartsAt critical) : second = first.map (Moment.map change) := by
  induction h with
  | nil => rfl
  | cons _ _ ih =>
    rw [List.map_cons, ih fun moment hmem => hnone moment (List.mem_cons_of_mem _ hmem)]
  | part hstart => exact absurd hstart (hnone _ List.mem_cons_self)

/-- At the first critical step of the first history the second one has a step as well, from the same
console but for the change. -/
theorem AgreeUntil.exists_part {before after : List Moment} {start : Console}
    (h : AgreeUntil change critical first second)
    (hfirst : first = before ++ .ofStep start :: after)
    (hbefore : ∀ moment ∈ before, ¬moment.StartsAt critical) (hstart : critical start) :
    ∃ after', second = before.map (Moment.map change) ++ .ofStep (change start) :: after' := by
  induction h generalizing before with
  | nil => simp at hfirst
  | cons hmoment _ ih =>
    cases before with
    | nil =>
      rw [List.nil_append, List.cons.injEq] at hfirst
      rw [hfirst.1] at hmoment
      -- a moment already agreed on is not critical
      exact absurd hstart hmoment
    | cons _ before =>
      rw [List.cons_append, List.cons.injEq] at hfirst
      obtain ⟨rfl, hrest⟩ := hfirst
      obtain ⟨after', hsecond⟩ :=
        ih hrest fun moment hmem => hbefore moment (List.mem_cons_of_mem _ hmem)
      exact ⟨after', by rw [hsecond, List.map_cons, List.cons_append]⟩
  -- the agreement ends here, so that this is the first critical step
  | part hcritical =>
    cases before with
    | nil =>
      rw [List.nil_append, List.cons.injEq, Moment.ofStep, Moment.ofStep, Moment.step.injEq]
        at hfirst
      obtain ⟨⟨rfl, -, -⟩, -⟩ := hfirst
      exact ⟨_, rfl⟩
    | cons moment before =>
      rw [List.cons_append, List.cons.injEq] at hfirst
      rw [← hfirst.1] at hbefore
      exact absurd hcritical (hbefore _ List.mem_cons_self)

/-- Histories go on agreeing if what follows agrees, should no critical step come before. -/
theorem AgreeUntil.append {first' second' : List Moment}
    (h : AgreeUntil change critical first second)
    (h' : (∀ moment ∈ first, ¬moment.StartsAt critical) →
      AgreeUntil change critical first' second') :
    AgreeUntil change critical (first ++ first') (second ++ second') := by
  induction h with
  | nil => exact h' (by simp)
  | cons hmoment _ ih =>
    refine .cons hmoment (ih fun hnone => h' ?_)
    exact List.forall_mem_cons.2 ⟨hmoment, hnone⟩
  | part hstart => exact .part hstart _ _

end AgreeUntil

/-- A console and the changed one do the same up to the first critical step: altogether if there is
none, and otherwise until both set out on that step, from consoles that are still the same but for the
change. -/
structure SameUntil (change : Console → Console) (critical : Console → Prop) (console : Console)
    (commands : List Command) : Prop where
  always : (∀ moment ∈ console.history commands, ¬moment.StartsAt critical) →
    (change console).history commands = (console.history commands).map (Moment.map change) ∧
      (change console).run commands = change (console.run commands)
  part : ∀ before start after, console.history commands = before ++ .ofStep start :: after →
    (∀ moment ∈ before, ¬moment.StartsAt critical) → critical start →
    ∃ after', (change console).history commands =
      before.map (Moment.map change) ++ .ofStep (change start) :: after'

/-! ## Changes that go unnoticed -/

/-- What has to be true of a change so that only critical steps can tell. -/
structure Unnoticed (change : Console → Console) (critical : Console → Prop) : Prop where
  enqueue : ∀ console move, (change console).enqueue move = change (console.enqueue move)
  tick : ∀ console, { change console with machine := (change console).machine.tick } =
    change { console with machine := console.machine.tick }
  sounding : ∀ console, (change console).machine.isSounding = console.machine.isSounding
  frameLength : ∀ console, (change console).settings.frameLength = console.settings.frameLength
  step : ∀ console, ¬critical console →
    (change console).step = { console.step with console := change console.step.console }

namespace Unnoticed

variable {change : Console → Console} {critical : Console → Prop}
  (h : Unnoticed change critical) {console : Console}
include h

/-- A step that is not critical happens to the changed console as it does to the console. -/
theorem map_ofStep (hcritical : ¬critical console) :
    (Moment.ofStep console).map change = .ofStep (change console) := by
  rw [Moment.ofStep, Moment.ofStep, h.step console hcritical]
  rfl

/-! ## Frames -/

/-- The steps of a frame agree up to the first critical one. -/
theorem agreeUntil_frameStarts (count : ℕ) :
    AgreeUntil change critical ((console.frameStarts count).map .ofStep)
      (((change console).frameStarts count).map .ofStep) := by
  induction count generalizing console with
  | zero => exact .nil
  | succ count ih =>
    rw [frameStarts, frameStarts, List.map_cons, List.map_cons]
    by_cases hcritical : critical console
    · exact .part hcritical _ _
    · rw [← h.map_ofStep hcritical, h.step console hcritical]
      -- the next step starts from where this one has come to, on both sides
      refine .cons hcritical ?_
      cases console.step.outcome.isProgress with
      | true => exact ih
      | false => exact .nil

/-- The steps of a frame without a critical one. -/
theorem steps (count : ℕ) (run : FrameRun)
    (hnone : ∀ start ∈ run.console.frameStarts count, ¬critical start) :
    FrameRun.steps { run with console := change run.console } count =
      { run.steps count with console := change (run.steps count).console } := by
  rw [FrameRun.steps_eq_foldl, FrameRun.steps_eq_foldl]
  dsimp only
  induction count generalizing run with
  | zero => rfl
  | succ count ih =>
    rw [frameStarts] at hnone ⊢
    obtain ⟨hcritical, hrest⟩ := List.forall_mem_cons.1 hnone
    have hstep := h.step run.console hcritical
    have hnote : FrameRun.note { run with console := change run.console } (change run.console).step =
        { run.note run.console.step with console := change (run.note run.console.step).console } := by
      rw [hstep]
      rfl
    rw [frameStarts, List.foldl_cons, List.foldl_cons, hnote, hstep]
    cases hprogress : run.console.step.outcome.isProgress with
    | true =>
      rw [hprogress, if_pos rfl] at hrest
      exact ih (run.note run.console.step) hrest
    | false => rfl

/-- What comes after the steps of a frame, its tick above all, goes unnoticed. -/
theorem finish (run : FrameRun) :
    FrameRun.finish { run with console := change run.console } =
      { run.finish with console := change run.finish.console } := by
  rw [FrameRun.finish, FrameRun.finish]
  dsimp only
  split
  · rw [h.sounding]
  · have hsounding : (change run.console).machine.tick.isSounding =
        run.console.machine.tick.isSounding :=
      (congrArg (fun console => console.machine.isSounding) (h.tick run.console)).trans (h.sounding _)
    rw [hsounding, h.tick]

/-- **A frame.** Without a critical step its summary is the same. -/
theorem frame
    (hnone : ∀ start ∈ console.frameStarts console.settings.frameLength, ¬critical start) :
    (change console).frame = { console.frame with console := change console.frame.console } := by
  have hsteps := h.steps console.settings.frameLength { console } hnone
  rw [Console.frame, Console.frame, h.frameLength, hsteps, h.finish]

/-! ## Commands and runs -/

/-- The steps of a command agree up to the first critical one. -/
theorem agreeUntil_starts (command : Command) :
    AgreeUntil change critical ((command.starts console).map .ofStep)
      ((command.starts (change console)).map .ofStep) := by
  cases command with
  | enqueue move => exact .nil
  | step =>
    by_cases hcritical : critical console
    · exact .part hcritical _ _
    · rw [Command.starts, Command.starts, List.map_singleton, List.map_singleton,
        ← h.map_ofStep hcritical]
      exact .cons hcritical .nil
  | frame =>
    rw [Command.starts, Command.starts, h.frameLength]
    exact h.agreeUntil_frameStarts _

/-- A command that makes no critical step is answered alike. -/
theorem perform {command : Command} (hnone : ∀ start ∈ command.starts console, ¬critical start) :
    (change console).perform command =
      { console.perform command with console := change (console.perform command).console } := by
  cases command with
  | enqueue move =>
    rw [Console.perform, Console.perform, h.enqueue]
  | step =>
    rw [Console.perform, Console.perform, h.step console (hnone console List.mem_cons_self)]
  | frame =>
    rw [Console.perform, Console.perform, h.frame hnone]

/-- **A whole run.** The histories agree up to the first critical step. -/
theorem agreeUntil_history (commands : List Command) :
    AgreeUntil change critical (console.history commands) ((change console).history commands) := by
  induction commands generalizing console with
  | nil => exact .nil
  | cons command rest ih =>
    rw [history, history]
    refine (h.agreeUntil_starts command).append fun hnone => ?_
    rw [List.forall_mem_map] at hnone
    rw [h.perform hnone]
    exact .cons id ih

/-- Without a critical step the consoles are the same in the end but for the change. -/
theorem run {commands : List Command}
    (hnone : ∀ moment ∈ console.history commands, ¬moment.StartsAt critical) :
    (change console).run commands = change (console.run commands) := by
  induction commands generalizing console with
  | nil => rfl
  | cons command rest ih =>
    rw [history, List.forall_mem_append, List.forall_mem_map, List.forall_mem_cons] at hnone
    obtain ⟨hstarts, -, hrest⟩ := hnone
    rw [run_cons, run_cons, h.perform hstarts]
    exact ih hrest

/-- What is true of one step is true of any run up to its first critical step. -/
theorem sameUntil (commands : List Command) : SameUntil change critical console commands where
  always hnone := ⟨(h.agreeUntil_history commands).eq_map hnone, h.run hnone⟩
  part _ _ _ := (h.agreeUntil_history commands).exists_part

end Unnoticed

end Console

end Chip8
