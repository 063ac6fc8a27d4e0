import Chip8.Proofs.Machine.Alteration
import Chip8.Proofs.Machine.Run

/-!
# When the timers tick

The timers are read by one instruction and written by two. Everything else neither looks at them nor
touches them, so that it comes to the same whether they tick before it or after it (`cycle_tick`).

`untimed` takes the timers off a machine, an attempt or a response. To perform a command that reads no
timer on the untimed machine comes to the same, once untimed (`untimed_perform`). Two lists of commands
that are `Retimed` differ in their ticks only: until a timer is read, their runs carry out the same
instructions, answer alike and end in machines that are equal once untimed (`run_of_retimed`).
-/

namespace Chip8

/-- The machine with other values in its timers. -/
def Machine.setTimers (m : Machine) (delay sound : UInt8) : Machine :=
  { m with delay, sound }

/-- The machine without its timers. -/
def Machine.untimed (m : Machine) : Machine :=
  m.setTimers 0 0

/-- The attempt without the timers of its machine. -/
def Attempt.untimed {ε α : Type} (attempt : Attempt ε α) : Attempt ε α :=
  { attempt with machine := attempt.machine.untimed }

/-- The response without the timers of its machine. -/
def Machine.Response.untimed (response : Response) : Response :=
  { response with machine := response.machine.untimed }

namespace Machine

/-- Machines that are equal without their timers differ in them at most. -/
theorem eq_of_untimed {m n : Machine} (h : m.untimed = n.untimed) :
    n = { m with delay := n.delay, sound := n.sound } :=
  congrArg (fun k => k.setTimers n.delay n.sound) h.symm

/-! ## Instructions -/

section Instruction

variable (m : Machine)

/-- An operation that is not about the timers does not notice them. -/
theorem unnoticed_timers {operation : Operation} (hget : operation ≠ .getDelay)
    (hdelay : operation ≠ .setDelay) (hsound : operation ≠ .setSound) (w : Opcode)
    (delay sound : UInt8 → UInt8) : Alteration.Unnoticed { delay, sound } m w operation := by
  cases operation with
  | getDelay => exact absurd rfl hget
  | setDelay => exact absurd rfl hdelay
  | setSound => exact absurd rfl hsound
  | skipIfKey | skipUnlessKey | storeRun | loadRun => rfl
  | _ => trivial

/-- An operation that is not about the timers does the same whatever they say, and leaves them. -/
theorem effect_setTimers {operation : Operation} (hget : operation ≠ .getDelay)
    (hdelay : operation ≠ .setDelay) (hsound : operation ≠ .setSound) (w : Opcode)
    (delay sound : UInt8) :
    operation.effect w (m.setTimers delay sound) =
      { operation.effect w m with
        machine := (operation.effect w m).machine.setTimers delay sound } :=
  effect_alter (unnoticed_timers m hget hdelay hsound w (fun _ => delay) fun _ => sound)

/-- The effect of an operation that does not read a timer is the same on the untimed machine, once
untimed. -/
theorem untimed_effect {operation : Operation} (hget : operation ≠ .getDelay) (w : Opcode) :
    (operation.effect w m.untimed).untimed = (operation.effect w m).untimed := by
  -- what a timer is set to is lost again once untimed
  by_cases hdelay : operation = .setDelay
  · rw [hdelay]
    rfl
  by_cases hsound : operation = .setSound
  · rw [hsound]
    rfl
  rw [untimed, effect_setTimers m hget hdelay hsound]
  rfl

theorem untimed_execute {operation : Operation} (hget : operation ≠ .getDelay) (w : Opcode) :
    (m.untimed.execute operation w).untimed = (m.execute operation w).untimed := by
  have heffect := untimed_effect m hget w
  simp only [Attempt.untimed, Attempt.mk.injEq] at heffect
  obtain ⟨hresult, hmachine, hlog⟩ := heffect
  rw [execute_eq, execute_eq, hresult, hlog]
  simp only [Attempt.untimed, hmachine]
  rfl

/-- A cycle that does not read a timer is the same on the untimed machine, once untimed. -/
theorem untimed_cycle
    (h : ∀ instruction ∈ Command.cycle.instruction? m, instruction.1 ≠ .getDelay) :
    m.untimed.cycle.untimed = m.cycle.untimed := by
  have hfetch : m.untimed.fetch = m.fetch := rfl
  have hwaiting : m.untimed.waiting = m.waiting := rfl
  cases hwait : m.waiting with
  | true =>
    rw [cycle_of_waiting hwait, cycle_of_waiting (hwaiting.trans hwait)]
    rfl
  | false =>
    cases hdecode : DecodingTable.standard.decode? m.fetch with
    | none =>
      rw [cycle_of_unknown hwait hdecode, cycle_of_unknown (hwaiting.trans hwait) hdecode]
      rfl
    | some operation =>
      have hinstruction : Command.cycle.instruction? m = some (operation, m.fetch) := by
        simp [Command.instruction?, hwait, hdecode]
      rw [cycle_of_decode hwait hdecode, cycle_of_decode (hwaiting.trans hwait) hdecode, hfetch]
      exact untimed_execute m (h _ hinstruction) m.fetch

/-! ## Ticks around an instruction -/

/-- A cycle that is not about the timers and a tick can be exchanged. A waiting machine fetches nothing,
so that the opcode at its program counter may be any. -/
theorem cycle_tick (h : m.waiting = false →
      DecodingTable.standard.decode? m.fetch ≠ some .getDelay ∧
      DecodingTable.standard.decode? m.fetch ≠ some .setDelay ∧
      DecodingTable.standard.decode? m.fetch ≠ some .setSound) :
    m.tick.cycle = { m.cycle with machine := m.cycle.machine.tick } := by
  refine cycle_alter (m := m) (a := { delay := countDown, sound := countDown }) ?_
  intro hwaiting operation hdecode
  obtain ⟨hget, hdelay, hsound⟩ := h hwaiting
  rw [Option.mem_def.1 hdecode] at hget hdelay hsound
  exact unnoticed_timers m (mt (congrArg some) hget) (mt (congrArg some) hdelay)
    (mt (congrArg some) hsound) m.fetch countDown countDown

end Instruction

/-! ## Commands -/

section Perform

variable {m n : Machine} {command : Command}

theorem untimed_ofInstruction {a b : Attempt Fault Status} (h : a.untimed = b.untimed) :
    (Response.ofInstruction a).untimed = (Response.ofInstruction b).untimed := by
  simp only [Attempt.untimed, Attempt.mk.injEq] at h
  obtain ⟨hresult, hmachine, hlog⟩ := h
  rw [Response.ofInstruction, Response.ofInstruction, hresult]
  cases b.result with
  | ok status => simp only [Response.untimed, hmachine, hlog]
  | error fault => simp only [Response.untimed, hmachine, hlog]

/-- **One command.** To perform a command that does not read a timer on the untimed machine comes to
the same, once untimed. -/
theorem untimed_perform (h : ∀ instruction ∈ command.instruction? m, instruction.1 ≠ .getDelay) :
    (m.untimed.perform command).untimed = (m.perform command).untimed := by
  cases command with
  | cycle => exact untimed_ofInstruction (untimed_cycle m h)
  | execute operation w => exact untimed_ofInstruction (untimed_execute m (h _ rfl) w)
  | press code =>
    have hlog : m.untimed.pressLog code = m.pressLog code := rfl
    have hpress : (m.untimed.press code).untimed = (m.press code).untimed := by
      rw [press_eq, press_eq]
      rfl
    simp only [perform, Response.untimed, hlog, hpress]
  | load source =>
    simp only [perform, load]
    cases Program.ofSource source with
    | ok program =>
      have hinstall : (m.untimed.install program).untimed = (m.install program).untimed := by
        rw [install, install, untimed, untimed, untimed]
        rfl
      simp only [Response.ofLoad, Response.untimed, hinstall]
    | error reason => rfl
  | pass | tick | release | takeStale => rfl

/-- Machines that are equal once untimed set out to carry out the same. -/
theorem instruction?_of_untimed (h : m.untimed = n.untimed) (command : Command) :
    command.instruction? n = command.instruction? m := by
  rw [eq_of_untimed h]
  cases command with
  | cycle | execute | pass | tick | press | release | load | takeStale => rfl

/-- Until a timer is read, machines that are equal once untimed answer alike, carry out the same and
stay equal once untimed. -/
theorem perform_of_untimed (h : m.untimed = n.untimed)
    (hget : ∀ instruction ∈ command.instruction? m, instruction.1 ≠ .getDelay) :
    (n.perform command).reply = (m.perform command).reply ∧
      command.completed? n = command.completed? m ∧
      (m.perform command).machine.untimed = (n.perform command).machine.untimed := by
  have hinstruction := instruction?_of_untimed h command
  have hresponse : (m.perform command).untimed = (n.perform command).untimed := by
    rw [← untimed_perform hget, h, untimed_perform (hinstruction ▸ hget)]
  have hreply : (n.perform command).reply = (m.perform command).reply :=
    (congrArg Response.reply hresponse).symm
  refine ⟨hreply, ?_, congrArg Response.machine hresponse⟩
  rw [Command.completed?, Command.completed?, hreply, hinstruction]

end Perform

/-! ## Runs -/

/-- Two lists of commands that differ in their ticks only. -/
inductive Retimed : List Command → List Command → Prop where
  | nil : Retimed [] []
  | both (command : Command) {first second : List Command} (h : Retimed first second) :
      Retimed (command :: first) (command :: second)
  | first {first second : List Command} (h : Retimed first second) :
      Retimed (.tick :: first) second
  | second {first second : List Command} (h : Retimed first second) :
      Retimed first (.tick :: second)

/-- Lists with the same commands besides ticks differ in their ticks only. -/
theorem retimed_of_filter_eq {first second : List Command}
    (h : first.filter (· ≠ .tick) = second.filter (· ≠ .tick)) : Retimed first second := by
  induction first generalizing second with
  | nil =>
    induction second with
    | nil => exact .nil
    | cons command rest ih =>
      by_cases htick : command = .tick
      · rw [htick] at h ⊢
        exact .second (ih h)
      · simp [htick] at h
  | cons command rest ih =>
    by_cases htick : command = .tick
    · rw [htick] at h ⊢
      exact .first (ih h)
    · -- the command comes in the second list as well, after some ticks
      induction second with
      | nil => simp [htick] at h
      | cons command' rest' ih' =>
        by_cases htick' : command' = .tick
        · rw [htick'] at h ⊢
          exact .second (ih' h)
        · simp only [ne_eq, htick, htick', not_false_eq_true, decide_true, List.filter_cons_of_pos,
            List.cons.injEq] at h
          obtain ⟨rfl, hrest⟩ := h
          exact .both command (ih hrest)

/-- The commands of a run, each with the answer to it. -/
def transcript (m : Machine) (commands : List Command) : List (Command × Reply) :=
  commands.zip (m.replies commands)

theorem transcript_cons (m : Machine) (command : Command) (rest : List Command) :
    m.transcript (command :: rest) =
      (command, (m.perform command).reply) :: (m.perform command).machine.transcript rest := rfl

/-- An instruction that reads a timer is never refused. -/
theorem instruction?_ne_getDelay {m : Machine} {command : Command}
    (h : ∀ instruction ∈ command.completed? m, instruction.1 ≠ .getDelay) :
    ∀ instruction ∈ command.instruction? m, instruction.1 ≠ .getDelay := by
  rintro ⟨operation, w⟩ hinstruction rfl
  exact h (.getDelay, w) (completed?_eq_some_iff.2 ⟨hinstruction, rfl⟩) rfl

/-- **A whole run.** If the first of two runs that differ in their ticks only reads no timer, the
second one carries out the same, answers alike and ends in the same machine once untimed. -/
theorem run_of_retimed {m n : Machine} (h : m.untimed = n.untimed) {first second : List Command}
    (hticks : Retimed first second)
    (hget : ∀ instruction ∈ m.completed first, instruction.1 ≠ .getDelay) :
    n.completed second = m.completed first ∧
      (n.transcript second).filter (·.1 ≠ .tick) = (m.transcript first).filter (·.1 ≠ .tick) ∧
      (m.run first).untimed = (n.run second).untimed := by
  -- what is kept along both runs is that the machines are equal once untimed
  induction hticks generalizing m n with
  | nil => exact ⟨rfl, rfl, h⟩
  | @both command first second _ ih =>
    rw [completed] at hget
    obtain ⟨hcommand, hrest⟩ := List.forall_mem_append.1 hget
    have hinstruction := instruction?_ne_getDelay fun i hi => hcommand i (Option.mem_toList.2 hi)
    obtain ⟨hreply, hcompleted, hmachine⟩ := perform_of_untimed h hinstruction
    obtain ⟨hcompleteds, htranscript, hrun⟩ := ih hmachine hrest
    refine ⟨?_, ?_, hrun⟩
    · rw [completed, completed, hcompleted, hcompleteds]
    · rw [transcript_cons, transcript_cons, List.filter_cons, List.filter_cons, hreply,
        htranscript]
  -- a tick on one side only: its machine is still the same once untimed
  | first _ ih => exact ih (m := m.tick) h hget
  | second _ ih => exact ih (n := n.tick) h hget

/-- **The schedule of the timers.** Two runs from one machine whose commands are the same besides
ticks: if the first one reads no timer, neither does the second, all that is no tick is answered
alike, and the machines differ in their timers at most. In particular a tick and a cycle can be
exchanged, unless the cycle fetches an opcode that stands for an instruction about the timers. -/
theorem tick_schedule_independent :
    (∀ (m : Machine) (first second : List Command),
      first.filter (· ≠ .tick) = second.filter (· ≠ .tick) →
      (∀ instruction ∈ m.completed first, instruction.1 ≠ .getDelay) →
      (∀ instruction ∈ m.completed second, instruction.1 ≠ .getDelay) ∧
      m.completed second = m.completed first ∧
      (m.transcript second).filter (·.1 ≠ .tick) = (m.transcript first).filter (·.1 ≠ .tick) ∧
      m.run second =
        { m.run first with delay := (m.run second).delay, sound := (m.run second).sound }) ∧
    (∀ m : Machine,
      (m.waiting = false →
        DecodingTable.standard.decode? m.fetch ≠ some .getDelay ∧
        DecodingTable.standard.decode? m.fetch ≠ some .setDelay ∧
        DecodingTable.standard.decode? m.fetch ≠ some .setSound) →
      m.tick.cycle.result = m.cycle.result ∧ m.tick.cycle.machine = m.cycle.machine.tick) := by
  constructor
  · intro m first second hfilter hget
    obtain ⟨hcompleted, htranscript, hrun⟩ :=
      run_of_retimed rfl (retimed_of_filter_eq hfilter) hget
    exact ⟨hcompleted ▸ hget, hcompleted, htranscript, eq_of_untimed hrun⟩
  · intro m h
    rw [cycle_tick m h]
    exact ⟨rfl, rfl⟩

/-- A wait for a key, and a timer set from what it brings: the ticks come before and during the wait in
one run, and after it in the other. A machine about to run into an unknown opcode can tick first, and so
can a waiting one that has an opcode about the timers in front of it. -/
theorem ticks_around_wait :
    let m := fresh .indexed (.ofSeed 0)
    let wait : Command := .execute .awaitKey ⟨0xF30A⟩
    let set : Command := .execute .setDelay ⟨0xF315⟩
    let first : List Command := [.tick, wait, .tick, .cycle, .press 0x1B, set]
    let second : List Command := [wait, .cycle, .press 0x1B, set, .tick, .tick]
    let lost : Machine := { m with memory := ⟨Vector.replicate 4096 0x55⟩, sound := 3 }
    let idle : Machine := { m with
      memory := ⟨Vector.ofFn fun i => if i.val % 2 = 0 then 0xF0 else 0x07⟩, sound := 3, waiting := true }
    (first.filter (· ≠ .tick) = second.filter (· ≠ .tick) ∧
      (∀ instruction ∈ m.completed first, instruction.1 ≠ .getDelay) ∧
      (m.run first).delay = 11 ∧ (m.run second).delay = 9 ∧
      (m.run second).registers = (m.run first).registers) ∧
    (DecodingTable.standard.decode? lost.fetch = none ∧
      lost.tick.cycle.machine = lost.cycle.machine.tick) ∧
    DecodingTable.standard.decode? idle.fetch = some .getDelay ∧
      idle.tick.cycle.machine = idle.cycle.machine.tick := by
  intro m wait set first second lost idle
  have hfilter : first.filter (· ≠ .tick) = second.filter (· ≠ .tick) := by decide
  have hget : ∀ instruction ∈ m.completed first, instruction.1 ≠ .getDelay := by decide
  obtain ⟨-, -, -, hrun⟩ := tick_schedule_independent.1 m first second hfilter hget
  have hfetch : lost.fetch = ⟨0x5555⟩ := by
    rw [fetch]
    simp [lost, m, fresh, Memory.word, Memory.read]
  have hdecode : DecodingTable.standard.decode? lost.fetch = none := by
    rw [hfetch]
    decide
  have hidle : idle.fetch = ⟨0xF007⟩ := by
    simp only [fetch, Memory.word, Memory.read, idle, Fin.getElem_fin, Vector.getElem_ofFn]
    decide
  have hdecode' : DecodingTable.standard.decode? idle.fetch = some .getDelay := by
    rw [hidle]
    decide
  obtain ⟨-, htick⟩ := tick_schedule_independent.2 lost fun _ => by simp [hdecode]
  obtain ⟨-, htick'⟩ := tick_schedule_independent.2 idle fun hwaiting => by simp [idle] at hwaiting
  refine ⟨⟨hfilter, hget, by decide, by decide, ?_⟩, ⟨hdecode, htick⟩, hdecode', htick'⟩
  rw [hrun]

end Machine

end Chip8
