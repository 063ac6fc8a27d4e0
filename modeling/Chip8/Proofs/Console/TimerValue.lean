import Chip8.Proofs.Console.PlainLoop
import Chip8.Proofs.Machine.TimerValue

/-!
# Timers and frames

The timers of a console's machine tick at the end of each frame that does not stop
(`count_tick_actions`). So over a run of the console a timer says what it was last set to, less the
number of such frames that have ended since then, the one that it was set in among them.

* `exists_lastSet`, `read_run`: every run has a last setting, and what the timer says follows from it.
* `timer_is_last_setting_less_ticks`: the timers of machines and of consoles, in one statement.
-/

namespace Chip8.Console

/-- The summary in a reply, if a frame is answered. -/
def Reply.summary? : Reply → Option FrameSummary
  | summary s => some s
  | _ => none

/-- The summaries of the frames of a run, in order. -/
def summaries (console : Console) : List Command → List FrameSummary
  | [] => []
  | command :: rest =>
    (console.perform command).reply.summary?.toList ++ summaries (console.perform command).console rest

/-- How many frames of a run have ended without a fault. -/
def framesUnstopped (console : Console) (commands : List Command) : ℕ :=
  (console.summaries commands).countP fun summary => !summary.stopped

/-! ## Ticks -/

/-- A command ticks the machine once if it is a frame that has not stopped, and otherwise not at all. -/
theorem count_tick_command (console : Console) (command : Command) :
    (command.actions console).count .tick =
      (console.perform command).reply.summary?.toList.countP fun summary => !summary.stopped := by
  cases command with
  | enqueue move => rfl
  | step => exact List.count_eq_zero_of_not_mem (tick_not_mem_stepActions console)
  | frame =>
    rw [count_tick_frame, perform]
    cases hstopped : console.frame.summary.stopped <;> simp [Reply.summary?, hstopped]

/-- The machine ticks as often as frames end without a fault. -/
theorem count_tick_actions (console : Console) (commands : List Command) :
    (console.actions commands).count .tick = console.framesUnstopped commands := by
  induction commands generalizing console with
  | nil => rfl
  | cons command rest ih =>
    rw [actions, List.count_append, count_tick_command, ih, framesUnstopped, framesUnstopped,
      summaries, List.countP_append]

/-- A tick comes last among what a command gives to the machine. -/
theorem tick_not_mem_of_actions {console : Console} {command : Command}
    {first last : List Machine.Command} {action : Machine.Command}
    (h : command.actions console = first ++ action :: last) (haction : action ≠ .tick) :
    Machine.Command.tick ∉ first := by
  cases command with
  | enqueue move => simp [Command.actions] at h
  | step =>
    intro hmem
    apply tick_not_mem_stepActions console
    rw [Command.actions] at h
    rw [h]
    exact List.mem_append_left _ hmem
  | frame =>
    -- an action that is no tick is given within the steps, as the tick of a frame comes after them
    have hgiven : first ++ [action] <+: console.stepsActions console.settings.frameLength := by
      have hall : first ++ [action] <+: Command.frame.actions console := ⟨last, by simp [h]⟩
      rw [Command.actions] at hall
      split at hall
      · rwa [List.append_nil] at hall
      · refine (List.prefix_concat_iff.1 hall).resolve_left fun heq => haction ?_
        exact List.singleton_inj.1 (List.append_inj_right' heq rfl)
    intro hmem
    exact tick_not_mem_stepsActions console _ (hgiven.subset (List.mem_append_left _ hmem))

/-! ## Runs -/

/-- What a timer was last set to in a run of a console, the console at the beginning of the command
that did so, and the commands from there on. -/
inductive LastSet (timer : Timer) (console : Console) :
    List Command → UInt8 → Console → List Command → Prop where
  /-- The run does not set the timer. -/
  | never {commands : List Command}
      (h : timer.Unset console.machine (console.actions commands)) :
      LastSet timer console commands (timer.read console.machine) console commands
  /-- A command of the run gives the machine an action that sets the timer, and nothing that is given
  to the machine after it does. -/
  | set (before : List Command) {command : Command} {since : List Command}
      {first last : List Machine.Command} {action : Machine.Command} {w : Opcode}
      (hactions : command.actions (console.run before) = first ++ action :: last)
      (hset : action.completed? ((console.run before).machine.run first) = some (timer.setter, w))
      (hsince : timer.Unset ((console.run before).machine.run (first ++ [action]))
        (last ++ (console.run (before ++ [command])).actions since)) :
      LastSet timer console (before ++ command :: since)
        (((console.run before).machine.run first).registers.get w.x)
        (console.run before) (command :: since)

/-- Every run has a last setting. -/
theorem exists_lastSet (timer : Timer) (console : Console) (commands : List Command) :
    ∃ value start since, LastSet timer console commands value start since := by
  induction commands generalizing console with
  | nil => exact ⟨_, _, _, .never (by simp [Timer.Unset, actions, Machine.completed])⟩
  | cons command rest ih =>
    obtain ⟨value, start, since, hrest⟩ := ih (console.perform command).console
    have hmachine := (account_perform console command).machine
    cases hrest with
    | never hunset =>
      -- the command itself may set the timer
      rw [hmachine] at hunset
      obtain ⟨_, _, hcommand⟩ := timer.exists_lastSet console.machine (command.actions console)
      generalize hactions : command.actions console = given at hmachine hunset hcommand
      cases hcommand with
      | never hnone =>
        refine ⟨_, _, _, .never ?_⟩
        rw [actions, hactions]
        exact (timer.unset_append _ _ _).2 ⟨hnone, hunset⟩
      | @set first action last _ hset hsince =>
        rw [← List.singleton_append, ← List.append_assoc, Machine.run_append] at hunset
        exact ⟨_, _, _, .set [] hactions hset
          ((timer.unset_append _ _ _).2 ⟨hsince, hunset⟩)⟩
    | @set before _ _ _ _ _ _ hactions hset hsince =>
      exact ⟨_, _, _, .set (command :: before) hactions hset hsince⟩

/-- **A whole run.** A timer says what it was last set to, less the number of frames that have ended
without a fault since then. -/
theorem read_run {timer : Timer} {console start : Console} {commands since : List Command}
    {value : UInt8} (h : LastSet timer console commands value start since) :
    (timer.read (console.run commands).machine).toNat =
      value.toNat - start.framesUnstopped since := by
  cases h with
  | never hunset =>
    rw [(account_run console commands).machine, timer.read_run_of_unset hunset, count_tick_actions]
  | @set before command since first last action w hactions hset hsince =>
    have htick : action ≠ .tick := by
      rintro rfl
      cases hset
    have hfirst : first.count .tick = 0 :=
      List.count_eq_zero_of_not_mem (tick_not_mem_of_actions hactions htick)
    rw [run_append, run_cons, run_nil] at hsince
    have hlast := Timer.read_run (Timer.LastSet.set first hset hsince)
    -- what the machine is given from the command on, and how many ticks are in it
    have hgiven : (console.run before).actions (command :: since) =
        first ++ action :: (last ++
          ((console.run before).perform command).console.actions since) := by
      rw [actions, hactions, List.append_assoc, List.cons_append]
    have hcount (rest : List Machine.Command) :
        (first ++ action :: rest).count .tick = rest.count .tick := by
      rw [List.count_append, hfirst, List.count_cons_of_ne htick, Nat.zero_add]
    rw [run_append, (account_run (console.run before) (command :: since)).machine,
      ← count_tick_actions, hgiven, hlast, hcount]

section Within

variable {timer : Timer} {console : Console} {command : Command} {first last : List Machine.Command}
  {action : Machine.Command} (hactions : command.actions console = first ++ action :: last)
  (haction : action ≠ .tick)
include hactions haction

/-- Within a command, a timer says what it was last set to there, without any ticks. -/
theorem read_within {value : UInt8} {since : List Machine.Command}
    (h : timer.LastSet console.machine first value since) :
    timer.read (console.machine.run first) = value := by
  have hcount : since.count .tick = 0 :=
    List.count_eq_zero_of_not_mem fun hmem =>
      tick_not_mem_of_actions hactions haction (h.suffix.subset hmem)
  rw [← UInt8.toNat_inj, Timer.read_run h, hcount, Nat.sub_zero]

end Within

/-- A frame that is spent waiting has not stopped, so that it ticks. -/
theorem stopped_frame_of_awaitingKey {console : Console}
    (h : ∀ outcome ∈ console.outcomes console.settings.frameLength, outcome = .awaitingKey) :
    console.frame.summary.stopped = false := by
  rw [summary_frame]
  refine List.any_eq_false.2 fun outcome hmem => ?_
  rw [h outcome hmem]
  exact Bool.false_ne_true

/-- **What the timers say.** In every run of a machine each timer has a last setting, by the instruction
that sets it or at the beginning, and says at the end what it was set to then, less the ticks since,
down to zero; neither is touched by setting the other. An instruction that reads the delay timer puts
just that into its register. The timers of a console's machine are counted down by the frames that
have ended without a fault since the setting, those spent waiting for a key among them, and so are the
values that its program reads, also in the middle of a frame. -/
theorem timer_is_last_setting_less_ticks :
    (∀ (timer : Timer) (m : Machine) (commands : List Machine.Command),
      (∃ value since, timer.LastSet m commands value since) ∧
      ∀ value since, timer.LastSet m commands value since →
        (timer.read (m.run commands)).toNat = value.toNat - since.count .tick) ∧
    (∀ (m : Machine) (command : Machine.Command) (w : Opcode),
      (command.completed? m = some (.setSound, w) →
        (m.perform command).machine.delay = m.delay) ∧
      (command.completed? m = some (.setDelay, w) →
        (m.perform command).machine.sound = m.sound)) ∧
    (∀ (m : Machine) (before : List Machine.Command) (command : Machine.Command) (w : Opcode),
      command.instruction? (m.run before) = some (.getDelay, w) →
      ∀ value since, Timer.delay.LastSet m before value since →
        ((m.run (before ++ [command])).registers.get w.x).toNat =
          value.toNat - since.count .tick) ∧
    (∀ (timer : Timer) (console : Console) (commands : List Command),
      (∃ value start since, LastSet timer console commands value start since) ∧
      ∀ value start since, LastSet timer console commands value start since →
        (timer.read (console.run commands).machine).toNat =
          value.toNat - start.framesUnstopped since) ∧
    (∀ (console : Console) (before : List Command) (command : Command)
        (first last : List Machine.Command) (action : Machine.Command) (w : Opcode),
      let m := (console.run before).machine
      command.actions (console.run before) = first ++ action :: last →
      action.instruction? (m.run first) = some (.getDelay, w) →
      (Timer.delay.Unset m first →
        ∀ value start since, LastSet .delay console before value start since →
          ((m.run (first ++ [action])).registers.get w.x).toNat =
            value.toNat - start.framesUnstopped since) ∧
      ∀ value since, Timer.delay.LastSet m first value since →
        (m.run (first ++ [action])).registers.get w.x = value) ∧
    (∀ console : Console,
      (1 ≤ console.settings.frameLength →
        console.frame.summary.stopped = console.frame.console.fault.isSome) ∧
      ((∀ outcome ∈ console.outcomes console.settings.frameLength, outcome = .awaitingKey) →
        console.frame.summary.stopped = false)) := by
  refine ⟨?_, ?_, ?_, ?_, ?_, ?_⟩
  · intro timer m commands
    exact ⟨timer.exists_lastSet m commands, fun value since h => Timer.read_run h⟩
  · intro m command w
    constructor
    · intro h
      have hother : (Timer.sound.setter : Operation) ≠ Timer.delay.setter := by decide
      rw [Machine.machine_perform_of_completed h]
      exact Timer.delay.read_effect hother w m
    · intro h
      have hother : (Timer.delay.setter : Operation) ≠ Timer.sound.setter := by decide
      rw [Machine.machine_perform_of_completed h]
      exact Timer.sound.read_effect hother w m
  · intro m before command w h value since hlast
    rw [Timer.get_run_of_getDelay h]
    exact Timer.read_run hlast
  · intro timer console commands
    exact ⟨exists_lastSet timer console commands, fun value start since h => read_run h⟩
  · intro console before command first last action w m hactions hget
    have haction : action ≠ .tick := by
      rintro rfl
      cases hget
    have hread (value : UInt8) (since : List Machine.Command)
        (hlast : Timer.delay.LastSet m first value since) :
        (m.run (first ++ [action])).registers.get w.x = value := by
      rw [Timer.get_run_of_getDelay hget]
      exact read_within hactions haction hlast
    refine ⟨fun hunset value start since hlast => ?_, hread⟩
    rw [hread _ _ (.never hunset)]
    exact read_run hlast
  · intro console
    refine ⟨fun hlength => ?_, stopped_frame_of_awaitingKey⟩
    rw [console_frame_of_pos hlength, stopped_frame hlength]
    split <;> rfl

/-- A program that sets the delay timer from the key that it was waiting for, waits for another key
through two frames, and reads the timer in its next step: it reads the key less two. -/
theorem delay_counts_frames :
    let memory : Memory := (⟨Vector.replicate 4096 0⟩ : Memory).writeAll 0x200
      [0xF5, 0x15, 0xF6, 0x0A, 0xF7, 0x07]
    let machine : Machine :=
      { Machine.fresh .indexed (.ofSeed 0) with memory, waiting := true, keyRegister := 5 }
    let console : Console := { machine, settings := {}, queue := [.down 0x9], fault := none }
    let before : List Command := [.step, .step, .frame, .frame, .enqueue (.down 0x2)]
    let direct : List Machine.Command :=
      [.press 0x9, .execute .setDelay ⟨0xF515⟩, .tick, .execute .setSound ⟨0xF518⟩, .tick]
    (∃ since, Timer.delay.LastSet machine direct 9 since ∧ since.count .tick = 2) ∧
      (machine.run direct).delay.toNat = 7 ∧ (machine.run direct).sound.toNat = 8 ∧
      ((machine.run (direct ++ [.execute .getDelay ⟨0xF707⟩])).registers.get 7).toNat = 7 ∧
      LastSet .delay console before 9 console before ∧ console.framesUnstopped before = 2 ∧
      (console.run before).machine.delay.toNat = 7 ∧
      Command.step.actions (console.run before) = [.press 0x2, .cycle] ∧
      (((console.run before).machine.run [.press 0x2, .cycle]).registers.get 7).toNat = 7 := by
  intro memory machine console before direct
  obtain ⟨hruns, -, hget, hconsole, hwithin, -⟩ := timer_is_last_setting_less_ticks
  -- the machine on its own
  let set : Machine.Command := .execute .setDelay ⟨0xF515⟩
  let since : List Machine.Command := [.tick, .execute .setSound ⟨0xF518⟩, .tick]
  have hset : set.completed? (machine.run [.press 0x9]) = some (.setDelay, ⟨0xF515⟩) := by decide
  have hunset : Timer.delay.Unset (machine.run ([.press 0x9] ++ [set])) since := by decide
  have hdelay : Timer.delay.LastSet machine direct 9 since :=
    @Timer.LastSet.set .delay _ _ _ _ _ hset hunset
  have hsound : Timer.sound.LastSet machine direct 9 [.tick] :=
    .set [.press 0x9, set, .tick] (w := ⟨0xF518⟩) (by decide) (by decide)
  -- the machine of the console, and what the next step gives it
  have hfirst : Command.step.actions (console.run []) = [.press 0x9] ++ .cycle :: [] := by
    decide +kernel
  have hcycle : Machine.Command.cycle.completed? ((console.run []).machine.run [.press 0x9]) =
      some (.setDelay, ⟨0xF515⟩) := by decide +kernel
  have hrest : Timer.delay.Unset ((console.run []).machine.run ([.press 0x9] ++ [.cycle]))
      ([] ++ (console.run [.step]).actions [.step, .frame, .frame, .enqueue (.down 0x2)]) := by
    decide +kernel
  have hlast : LastSet .delay console before 9 console before :=
    @LastSet.set .delay _ _ _ _ _ _ _ _ hfirst hcycle hrest
  have hframes : console.framesUnstopped before = 2 := by decide +kernel
  have hgiven : Command.step.actions (console.run before) = [.press 0x2] ++ .cycle :: [] := by
    decide +kernel
  have hread := (hwithin console before .step [.press 0x2] [] .cycle ⟨0xF707⟩ hgiven
    (by decide +kernel)).1 (by decide +kernel) _ _ _ hlast
  have hfinal := (hconsole .delay console before).2 _ _ _ hlast
  rw [hframes] at hread hfinal
  exact ⟨⟨_, hdelay, rfl⟩, (hruns .delay machine direct).2 _ _ hdelay,
    (hruns .sound machine direct).2 _ _ hsound, hget machine direct _ ⟨0xF707⟩ rfl _ _ hdelay,
    hlast, hframes, hfinal, hgiven, hread⟩

end Chip8.Console
