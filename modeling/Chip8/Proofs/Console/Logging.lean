import Chip8.Proofs.Console.Policies
import Chip8.Proofs.Machine.Logging

/-!
# What the log tells of a run

A console logs in four places: when a key press ends a wait, before an instruction is carried out, in
two of the instructions, and when it goes past an instruction or stops. For a run of a console this is
kept as an account (`Told`): what has been logged is held against the instructions dispatched and the
outcomes of the steps, and against the fault and the wait before and after.

* `told_deliver`, `told_play`, `told_step`: the account of a step, in its two halves and as a whole.
* `told_frameStarts`, `told_perform`, `told_run`: the account of a frame, of a command, of a run.
* `log_tells_run`: what can be read off the lines of a log.
-/

namespace Chip8

open Log

namespace Outcome

/-- Whether an instruction was carried out. -/
def isRan : Outcome → Bool
  | ran _ => true
  | _ => false

/-- Whether an unknown opcode was passed over. -/
def isPassedOver : Outcome → Bool
  | passedOver _ => true
  | _ => false

end Outcome

namespace Console

/-- The instruction that a step sets out to carry out. -/
def dispatch? (console : Console) : Option (UInt16 × Opcode × Operation) :=
  match console.fault with
  | some _ => none
  | none => console.deliver.machine.dispatch?

/-- One if a console has stopped for a fault of an instruction that it had begun, zero otherwise. -/
def fatalities (console : Console) : ℕ :=
  if ∃ fault ∈ console.fault, fault.isRecoverable = false then 1 else 0

/-! ## The account -/

/-- What has been logged while these instructions were set out on and steps came out so. -/
structure Told (before : Console) (instructions : List (UInt16 × Opcode × Operation))
    (outcomes : List Outcome) (log : List Event) (after : Console) : Prop where
  /-- Each instruction that was set out on is logged, in order. -/
  traces : log.filterMap Event.dispatch? = instructions
  /-- All of them were carried out, but for one that was the end. -/
  ran : instructions.length + before.fatalities = outcomes.countP Outcome.isRan + after.fatalities
  /-- What was passed over is logged. -/
  skips : log.countP Event.isSkip = outcomes.countP Outcome.isPassedOver
  /-- Waits begin and end in turn. -/
  waits : log.countP Event.isWait + before.machine.waiting.toNat =
    log.countP Event.isDelivery + after.machine.waiting.toNat
  /-- The fault is logged last. -/
  halts : ∃ told, (∀ event ∈ told, event.halt? = none) ∧
    before.fault.toList.map .halting ++ log = told ++ after.fault.toList.map .halting

/-- Without a fault there is no fatal one. -/
theorem fatalities_of_none {console : Console} (h : console.fault = none) :
    console.fatalities = 0 := by
  rw [fatalities, h]
  rfl

namespace Told

variable {a b c : Console} {instructions instructions' : List (UInt16 × Opcode × Operation)}
  {outcomes outcomes' : List Outcome} {log log' : List Event}

/-- Nothing has happened, and nothing is logged. -/
theorem refl (console : Console) : Told console [] [] [] console :=
  ⟨rfl, rfl, rfl, rfl, [], List.forall_mem_nil _, List.append_nil _⟩

/-- Where nothing is carried out or passed over, there is nothing to tell. -/
theorem idle (console : Console) {outcome : Outcome} (h : outcome.isProgress = false) :
    Told console [] [outcome] [] console := by
  cases outcome with
  | awaitingKey | stopped =>
    exact ⟨rfl, rfl, rfl, rfl, [], List.forall_mem_nil _, List.append_nil _⟩
  | ran | passedOver => cases h

/-- What is told of two stretches of a run is told of both together. The counts add up; of the faults,
the second one is logged last. -/
theorem trans (h : Told a instructions outcomes log b) (h' : Told b instructions' outcomes' log' c) :
    Told a (instructions ++ instructions') (outcomes ++ outcomes') (log ++ log') c where
  traces := by rw [List.filterMap_append, h.traces, h'.traces]
  ran := by
    have hfirst := h.ran
    have hsecond := h'.ran
    rw [List.length_append, List.countP_append]
    omega
  skips := by rw [List.countP_append, List.countP_append, h.skips, h'.skips]
  waits := by
    have hfirst := h.waits
    have hsecond := h'.waits
    rw [List.countP_append, List.countP_append]
    omega
  halts := by
    obtain ⟨told, htold, hlog⟩ := h.halts
    obtain ⟨told', htold', hlog'⟩ := h'.halts
    refine ⟨told ++ told', ?_, ?_⟩
    · exact List.forall_mem_append.2 ⟨htold, htold'⟩
    · rw [← List.append_assoc, hlog, List.append_assoc, hlog', List.append_assoc]

/-- The account is about the fault and the wait only. -/
theorem of_same (h : Told a instructions outcomes log b) (hfault : c.fault = b.fault)
    (hwait : c.machine.waiting = b.machine.waiting) : Told a instructions outcomes log c := by
  obtain ⟨htraces, hran, hskips, hwaits, hhalts⟩ := h
  refine ⟨htraces, ?_, hskips, ?_, ?_⟩
  · rwa [show c.fatalities = b.fatalities by rw [fatalities, fatalities, hfault]]
  · rwa [hwait]
  · rwa [hfault]

/-- Nothing is logged once there is a fault. -/
theorem log_eq_nil (h : Told a instructions outcomes log b) {fault : Fault}
    (hfault : a.fault = some fault) : log = [] := by
  obtain ⟨told, htold, hlog⟩ := h.halts
  rw [hfault] at hlog
  cases told with
  | nil =>
    have hlength := congrArg List.length hlog
    cases hafter : b.fault <;> simp [hafter] at hlength
    exact hlength
  | cons event rest =>
    have hevent : Event.halting fault = event := (List.cons.inj hlog).1
    rw [← hevent] at htold
    cases htold _ List.mem_cons_self

end Told

/-! ## Steps -/

section Step

variable {console : Console} (hfault : console.fault = none)
include hfault

/-- **Key moves.** At most one of them ends a wait, and is logged. -/
theorem told_deliver :
    Told console [] [] (KeyMove.logAll console.machine console.queue) console.deliver := by
  have hfault' : console.deliver.fault = none := hfault
  -- a wait ends with the first press of the queue, which is the one that is logged
  have hwaiting : console.deliver.machine.waiting =
      (console.machine.waiting && (KeyMove.firstPress? console.queue).isNone) :=
    KeyMove.waiting_deliverAll _ _
  have hhalts (log : List Event) (hlog : ∀ event ∈ log, event.halt? = none) : ∃ told,
      (∀ event ∈ told, event.halt? = none) ∧ console.fault.toList.map Event.halting ++ log =
        told ++ console.deliver.fault.toList.map .halting :=
    ⟨log, hlog, by simp [hfault, hfault']⟩
  rw [KeyMove.logAll_eq]
  cases hwait : console.machine.waiting with
  | false =>
    refine ⟨rfl, ?_, rfl, ?_, hhalts _ (by simp)⟩
    · rw [fatalities_of_none hfault, fatalities_of_none hfault']
      rfl
    · rw [hwaiting, hwait]
      rfl
  | true =>
    refine ⟨?_, ?_, ?_, ?_, hhalts _ (by simp [Event.halt?])⟩
    · cases KeyMove.firstPress? console.queue <;> rfl
    · rw [fatalities_of_none hfault, fatalities_of_none hfault']
      rfl
    · cases KeyMove.firstPress? console.queue <;> rfl
    · rw [hwaiting, hwait]
      cases KeyMove.firstPress? console.queue <;> rfl

/-- **An unknown opcode.** No instruction is set out on, and the console says where it goes. -/
theorem told_play_of_unknown (hwait : console.machine.waiting = false)
    (hunknown : DecodingTable.standard.decode? console.machine.fetch = none) :
    Told console [] [console.play.outcome] console.play.log console.play.console := by
  have hcycle := Machine.cycle_of_unknown hwait hunknown
  have hresult : console.machine.cycle.result =
      .error (.unknownOpcode console.machine.fetch console.machine.pc) := by
    rw [hcycle]
    rfl
  by_cases hpass : console.settings.onUnknown = .pass
  · rw [play_of_recovered hwait hresult ⟨rfl, hpass⟩, hcycle]
    refine ⟨rfl, rfl, rfl, rfl, ?_⟩
    rw [hfault]
    exact ⟨_, by simp [Event.halt?, Attempt.failed], (List.append_nil _).symm⟩
  · rw [play_of_unrecovered hwait hresult (mt And.right hpass), hcycle]
    refine ⟨rfl, ?_, rfl, rfl, ?_⟩
    · rw [fatalities_of_none hfault]
      rfl
    · rw [hfault]
      exact ⟨[], List.forall_mem_nil _, rfl⟩

/-- **An operation.** The instruction is logged before what comes of it. -/
theorem told_play_of_decode (hwait : console.machine.waiting = false) {operation : Operation}
    (hdecode : DecodingTable.standard.decode? console.machine.fetch = some operation) :
    Told console [(console.machine.pc, console.machine.fetch, operation)] [console.play.outcome]
      console.play.log console.play.console := by
  have hcycle := Machine.cycle_of_decode hwait hdecode
  cases hrefusal : console.machine.refusal? operation console.machine.fetch with
  | none =>
    have hresult : console.machine.cycle.result = .ok operation.status := by
      rw [hcycle, Machine.result_execute, hrefusal, Option.elim]
    obtain ⟨htraces, hskips, hwaits, hhalts⟩ :=
      Machine.aside_effect hwait operation console.machine.fetch
    have hplay : console.play =
        { outcome := .ran operation.status
          console :=
            { console with
              machine := (operation.effect console.machine.fetch console.machine).machine }
          log :=
            .dispatched console.machine.pc console.machine.fetch operation ::
              (operation.effect console.machine.fetch console.machine).log } := by
      rw [play_of_ok hwait hresult, hcycle, Machine.execute_eq]
    rw [hplay]
    constructor
    · simp [Event.dispatch?, htraces]
    · simp [fatalities, hfault, Outcome.isRan]
    · simp [Event.isSkip, Outcome.isPassedOver, hskips]
    · simp [Event.isWait, Event.isDelivery, hwait, hwaits]
    · rw [hfault]
      exact ⟨_, List.forall_mem_cons.2 ⟨rfl, hhalts⟩, (List.append_nil _).symm⟩
  | some fault =>
    have hrefused : (console.machine.execute operation console.machine.fetch).result =
        .error fault := (Machine.execute_error_iff _ _ _ _).2 hrefusal
    have hresult : console.machine.cycle.result = .error fault := by rw [hcycle, hrefused]
    -- an operation is refused for a fault of its own, never for an unknown opcode
    have hfatal : ¬fault.isRecoverable = true := by
      rw [Machine.isRecoverable_iff_of_cycle_error hresult, hdecode]
      exact Option.some_ne_none _
    -- that the instruction is begun is logged all the same
    rw [play_of_unrecovered hwait hresult (mt And.left hfatal), hcycle, Machine.execute_eq,
      Machine.effect_of_refusal hrefusal]
    refine ⟨rfl, ?_, rfl, ?_, ?_⟩
    · rw [fatalities_of_none hfault]
      simp [fatalities, hfatal, Outcome.isRan]
    · rfl
    · rw [hfault]
      exact ⟨[_], List.forall_mem_singleton.2 rfl, rfl⟩

/-- **What follows the key moves.** A wait, an unknown opcode or an operation. -/
theorem told_play :
    Told console console.machine.dispatch?.toList [console.play.outcome] console.play.log
      console.play.console := by
  cases hwait : console.machine.waiting with
  | true =>
    rw [Machine.dispatch?, hwait, if_pos rfl, play_of_waiting hwait]
    exact .idle console rfl
  | false =>
    rw [Machine.dispatch?, hwait, if_neg (by decide)]
    cases hdecode : DecodingTable.standard.decode? console.machine.fetch with
    | none => exact told_play_of_unknown hfault hwait hdecode
    | some operation => exact told_play_of_decode hfault hwait hdecode

end Step

/-- **A step.** -/
theorem told_step (console : Console) :
    Told console console.dispatch?.toList [console.step.outcome] console.step.log
      console.step.console := by
  rw [dispatch?]
  cases hfault : console.fault with
  | some fault =>
    rw [step_of_fault console hfault]
    exact .idle console rfl
  | none =>
    have hdeliver : console.deliver.fault = none := hfault
    rw [step, hfault]
    exact (told_deliver hfault).trans (told_play hdeliver)

/-! ## Frames -/

/-- A step is told in front of the steps that follow. -/
theorem told_cons {start after : Console} {starts : List Console} {log : List Event}
    (h : Told start.step.console (starts.filterMap dispatch?) (starts.map (·.step.outcome)) log after) :
    Told start ((start :: starts).filterMap dispatch?) ((start :: starts).map (·.step.outcome))
      (start.step.log ++ log) after := by
  have hinstructions : (start :: starts).filterMap dispatch? =
      start.dispatch?.toList ++ starts.filterMap dispatch? := by
    rw [List.filterMap_cons]
    cases start.dispatch? <;> rfl
  rw [hinstructions]
  exact (told_step start).trans h

/-- The steps of a frame. -/
theorem told_frameStarts (console : Console) (count : ℕ) :
    Told console ((console.frameStarts count).filterMap dispatch?)
      ((console.frameStarts count).map (·.step.outcome))
      ((console.frameStarts count).flatMap (·.step.log)) (console.afterSteps count) := by
  induction count generalizing console with
  | zero => exact .refl console
  | succ count ih =>
    rw [frameStarts, afterSteps, List.flatMap_cons]
    refine told_cons ?_
    cases hprogress : console.step.outcome.isProgress with
    | true => exact ih console.step.console
    | false =>
      -- a frame that has ended early would not have changed in the steps left out
      have hidle : console.step.outcome = .awaitingKey ∨
          ∃ fault, console.step.outcome = .stopped fault := by
        cases houtcome : console.step.outcome with
        | awaitingKey => exact .inl rfl
        | stopped fault => exact .inr ⟨fault, rfl⟩
        | ran | passedOver => rw [houtcome] at hprogress; cases hprogress
      rw [afterSteps_of_still _ (step_step_of_idle console hidle).2]
      exact .refl _

/-- A frame logs what its steps log. -/
theorem log_frame (console : Console) :
    console.frame.log =
      (console.frameStarts console.settings.frameLength).flatMap (·.step.log) := by
  -- for any run so far, as the log is added to from the left
  have hnotes (starts : List Console) (run : FrameRun) :
      (starts.foldl (fun run start => run.note start.step) run).log.toList =
        run.log.toList ++ starts.flatMap (·.step.log) := by
    induction starts generalizing run with
    | nil => exact (List.append_nil _).symm
    | cons start rest ih =>
      rw [List.foldl_cons, ih, List.flatMap_cons, FrameRun.note, Array.toList_appendList,
        List.append_assoc]
  rw [frame, FrameRun.finish, FrameRun.steps_eq_foldl]
  exact hnotes _ _

/-! ## Runs -/

/-- The consoles at the beginning of the steps of a run, within frames and outside. -/
def starts (console : Console) : List Command → List Console
  | [] => []
  | command :: rest => command.starts console ++ starts (console.perform command).console rest

/-- What a run logs. -/
def log (console : Console) : List Command → List Event
  | [] => []
  | command :: rest =>
    (console.perform command).log ++ log (console.perform command).console rest

/-- A step starts from the console itself. -/
theorem starts_step {console after : Console} {outcome : Outcome} (h : console.Stepped outcome after)
    (rest : List Command) : console.starts (.step :: rest) = console :: after.starts rest := by
  rw [starts, Command.starts, perform, (step_of_stepped h).2, List.singleton_append]

/-- **A command.** -/
theorem told_perform (console : Console) (command : Command) :
    Told console ((command.starts console).filterMap dispatch?)
      ((command.starts console).map (·.step.outcome)) (console.perform command).log
      (console.perform command).console := by
  cases command with
  | enqueue move => exact (Told.refl console).of_same rfl rfl
  | step =>
    have h : Told console ([console].filterMap dispatch?) _ (console.step.log ++ []) _ :=
      told_cons (.refl console.step.console)
    rwa [List.append_nil] at h
  | frame =>
    rw [perform, log_frame]
    refine (told_frameStarts console console.settings.frameLength).of_same ?_ ?_
    · rw [console_frame]
      split <;> rfl
    · rw [console_frame]
      split <;> rfl

/-- **A run.** -/
theorem told_run (console : Console) (commands : List Command) :
    Told console ((console.starts commands).filterMap dispatch?)
      ((console.starts commands).map (·.step.outcome)) (console.log commands)
      (console.run commands) := by
  induction commands generalizing console with
  | nil => exact .refl console
  | cons command rest ih =>
    rw [starts, List.filterMap_append, List.map_append]
    exact (told_perform console command).trans (ih _)

/-! ## What can be read off a log -/

/-- A console at a key, at an unknown opcode or at its end sets out on nothing. -/
theorem dispatch?_eq_none {console : Console}
    (h : console.step.outcome = .awaitingKey ∨ console.MeetsUnknown ∨ console.fault.isSome = true) :
    console.dispatch? = none := by
  rw [dispatch?]
  cases hfault : console.fault with
  | some fault => rfl
  | none =>
    rcases h with hkey | ⟨-, hwait, hunknown⟩ | hstopped
    · have hstep := stepped_step console
      rw [hkey] at hstep
      generalize console.step.console = after at hstep
      cases hstep with
      | awaiting _ hwait => exact if_pos hwait
    · simp only [Machine.dispatch?, hwait, hunknown, Option.map_none, ite_self]
    · rw [hfault] at hstopped
      cases hstopped

/-- Where an opcode is known and no key is awaited, a step sets out on its operation. -/
theorem dispatch?_of_decode {console : Console} (hfault : console.fault = none)
    (hwait : console.deliver.machine.waiting = false) {operation : Operation}
    (hdecode : DecodingTable.standard.decode? console.deliver.machine.fetch = some operation) :
    console.dispatch? =
      some (console.deliver.machine.pc, console.deliver.machine.fetch, operation) := by
  simp only [dispatch?, hfault, Machine.dispatch?, hwait, hdecode, Option.map_some,
    Bool.false_eq_true, if_false]

/-- A console that has stopped logs nothing, whatever is done to it. -/
theorem log_of_fault {console : Console} (h : console.fault.isSome = true) (commands : List Command) :
    console.log commands = [] := by
  obtain ⟨fault, hfault⟩ := Option.isSome_iff_exists.1 h
  exact (told_run console commands).log_eq_nil hfault

section Fresh

variable {start : Console} (hfault : start.fault = none) (commands : List Command)
include hfault

/-- A fault is logged, and nothing after it. -/
theorem exists_log_eq : ∃ told, (∀ event ∈ told, event.halt? = none) ∧
    start.log commands = told ++ (start.run commands).fault.toList.map .halting := by
  obtain ⟨told, htold, hlog⟩ := (told_run start commands).halts
  rw [hfault] at hlog
  exact ⟨told, htold, hlog⟩

/-- Of the lines of a log, the one of the fault is the last one. -/
theorem exists_lines_eq : ∃ told, (∀ line ∈ told, tells .error "" line = false) ∧
    lines .trace (start.log commands) =
      told ++ (start.run commands).fault.toList.map fun fault =>
        "ERROR halting: " ++ fault.message := by
  obtain ⟨told, htold, hlog⟩ := exists_log_eq hfault commands
  refine ⟨told.map Event.line, ?_, ?_⟩
  · rw [List.forall_mem_map]
    intro event hevent
    rw [tells_halt_line, htold event hevent, Option.isSome_none]
  · have hlines : Event.line ∘ Event.halting = fun fault => "ERROR halting: " ++ fault.message :=
      funext fun fault => line_of_halt? rfl
    rw [lines_trace, hlog, List.map_append, List.map_map, hlines]

end Fresh

/-- **The log tells the run.** Take the lines that a console logs at the finest level while it is
played from the start. The trace lines are those of the instructions that its steps set out on, in
order, with the program counter and the opcode fetched; there is one for each instruction carried out
and one more if the console has stopped in the midst of one. A step that finds a key awaited, that
meets an unknown opcode or that comes after the end adds none. There is a warning for each opcode
passed over, and one more message that a key is awaited than that one was pressed if one is awaited
now. If the console has stopped, the last line is an error that names the fault, and no line comes
after it; it is the only one. -/
theorem log_tells_run (settings : Settings) (entropy : ChaCha.Key) (start : Console)
    (hstart : start = ofSettings settings entropy ∨
      ∃ program, start = ofProgram settings entropy program) (commands : List Command) :
    let console := start.run commands
    let starts := start.starts commands
    let outcomes := starts.map (·.step.outcome)
    let lines := Log.lines .trace (start.log commands)
    lines.filter (tells .trace "") =
      (starts.filterMap dispatch?).map (fun (pc, w, operation) =>
        "TRACE " ++ Hexadecimal.address pc ++ ": " ++ Hexadecimal.word w.word ++ " " ++
          operation.mnemonic) ∧
    lines.countP (tells .trace "") =
      outcomes.countP Outcome.isRan +
        (if ∃ fault ∈ console.fault, fault.isRecoverable = false then 1 else 0) ∧
    (∀ before ∈ starts,
      before.step.outcome = .awaitingKey ∨ before.MeetsUnknown ∨ before.fault.isSome = true →
        (Log.lines .trace before.step.log).filter (tells .trace "") = []) ∧
    lines.countP (tells .warn "skipping: ") = outcomes.countP Outcome.isPassedOver ∧
    lines.countP (tells .debug "waiting for a key press") =
      lines.countP tellsDelivery + (if console.machine.waiting then 1 else 0) ∧
    (∃ told, (∀ line ∈ told, tells .error "" line = false) ∧
      lines = told ++ console.fault.toList.map fun fault => "ERROR halting: " ++ fault.message) ∧
    (console.fault.isSome = true → ∀ more, Log.lines .trace (console.log more) = []) := by
  intro console starts outcomes lines
  have hfresh : start.fault = none ∧ start.machine.waiting = false := by
    rcases hstart with rfl | ⟨program, rfl⟩
    · exact ⟨rfl, rfl⟩
    · exact ⟨rfl, rfl⟩
  obtain ⟨hfault, hwait⟩ := hfresh
  obtain ⟨htraces, hran, hskips, hwaits, -⟩ := told_run start commands
  rw [fatalities_of_none hfault, Nat.add_zero] at hran
  refine ⟨?_, ?_, ?_, ?_, ?_, exists_lines_eq hfault commands, ?_⟩
  · rw [filter_dispatch_lines_trace, htraces]
  · rw [List.countP_eq_length_filter, filter_dispatch_lines_trace, htraces, List.length_map]
    exact hran
  · intro before _ hnone
    rw [filter_dispatch_lines_trace, (told_step before).traces, dispatch?_eq_none hnone]
    rfl
  · rw [countP_lines_trace _ tells_skip_line, hskips]
  · rw [countP_lines_trace _ tells_wait_line, countP_lines_trace _ tellsDelivery_line]
    -- the account counts a wait as a number, the statement by cases
    have hbit (b : Bool) : b.toNat = if b then 1 else 0 := by cases b <;> rfl
    rw [hwait, Bool.toNat_false, Nat.add_zero, hbit] at hwaits
    exact hwaits
  · intro hstopped more
    rw [log_of_fault hstopped]
    rfl

/-- A program that awaits a key and then returns without a call, with the key pressed late. -/
theorem wait_and_return_are_told :
    let image : Array UInt8 := #[0xF0, 0x0A, 0x00, 0xEE]
    let start := ofProgram {} (Vector.replicate 8 0) ⟨image, by decide⟩
    let commands : List Command := [.step, .step, .enqueue (.down 0x7), .step]
    let console := start.run commands
    let lines := Log.lines .trace (start.log commands)
    console.fault = some (.callStackEmpty 0x202) ∧
      lines.filter (tells .trace "") =
        ["TRACE 0x200: 0xf00a LD Vx, K", "TRACE 0x202: 0x00ee RET"] ∧
      lines.countP (tells .debug "waiting for a key press") = lines.countP tellsDelivery ∧
      (∃ told, lines = told ++ ["ERROR halting: return with empty call stack at 0x202"]) ∧
      Log.lines .trace (console.log [.frame]) = [] := by
  intro image start commands
  dsimp only
  let first : Console :=
    { start with
      machine := { start.machine with pc := 0x202, waiting := true, keyRegister := 0 } }
  let second := first.enqueue (.down 0x7)
  have hword := Memory.word_install Memory.initial image
  have hfetch : start.deliver.machine.fetch = ⟨0xF00A⟩ :=
    congrArg Opcode.mk ((hword 0 (by decide) (by decide)).trans (by decide))
  have hfetch' : second.deliver.machine.fetch = ⟨0x00EE⟩ :=
    congrArg Opcode.mk ((hword 2 (by decide) (by decide)).trans (by decide))
  have hdecode : DecodingTable.standard.decode? start.deliver.machine.fetch = some .awaitKey := by
    rw [hfetch]
    decide
  have hdecode' : DecodingTable.standard.decode? second.deliver.machine.fetch = some .ret := by
    rw [hfetch']
    decide
  have hran : start.Stepped (.ran .waiting) first := by
    have h := stepped_awaitKey rfl rfl hdecode
    rw [hfetch] at h
    exact h
  have hwaited : first.Stepped .awaitingKey first := .awaiting rfl rfl
  have hhalted : second.Stepped (.stopped (.callStackEmpty 0x202))
      { second.deliver with fault := some (.callStackEmpty 0x202) } :=
    stepped_ret rfl rfl hdecode' rfl
  have hrun : start.run commands =
      { second.deliver with fault := some (.callStackEmpty 0x202) } := by
    rw [run_step hran, run_step hwaited, run_cons, perform, run_step hhalted, run_nil]
  have hstarts : start.starts commands = [start, first, second] := by
    rw [starts_step hran, starts_step hwaited, starts, perform, starts_step hhalted]
    rfl
  have hdispatch : start.dispatch? = some (0x200, ⟨0xF00A⟩, .awaitKey) := by
    rw [dispatch?_of_decode rfl rfl hdecode, hfetch]
    rfl
  have hdispatch' : second.dispatch? = some (0x202, ⟨0x00EE⟩, .ret) := by
    rw [dispatch?_of_decode rfl rfl hdecode', hfetch']
    rfl
  have hdispatched : (start.starts commands).filterMap dispatch? =
      [(0x200, ⟨0xF00A⟩, .awaitKey), (0x202, ⟨0x00EE⟩, .ret)] := by
    rw [hstarts, List.filterMap_cons_some hdispatch,
      List.filterMap_cons_none (dispatch?_eq_none (.inl (step_of_stepped hwaited).1)),
      List.filterMap_cons_some hdispatch', List.filterMap_nil]
  have hfault : (start.run commands).fault = some (.callStackEmpty 0x202) := by rw [hrun]
  have hwaiting : (start.run commands).machine.waiting = false := by
    rw [hrun]
    rfl
  obtain ⟨htraces, -, -, -, hwaits, ⟨told, -, htold⟩, hend⟩ :=
    log_tells_run {} (Vector.replicate 8 0) start (.inr ⟨_, rfl⟩) commands
  have htext : "ERROR halting: " ++ (Fault.callStackEmpty 0x202).message =
      "ERROR halting: return with empty call stack at 0x202" := by decide
  rw [hdispatched] at htraces
  rw [hwaiting, if_neg Bool.false_ne_true, Nat.add_zero] at hwaits
  rw [hfault, Option.toList_some, List.map_singleton, htext] at htold
  exact ⟨hfault, htraces.trans (by decide), hwaits, ⟨told, htold⟩,
    hend (Option.isSome_iff_exists.2 ⟨_, hfault⟩) _⟩

end Console

end Chip8
