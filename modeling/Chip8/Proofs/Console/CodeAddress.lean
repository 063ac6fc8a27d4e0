import Chip8.Proofs.Console.PlainLoop
import Chip8.Proofs.Machine.CodeAddress

/-!
# Code addresses of a console

What holds of alike machines holds of the consoles that play them. Consoles are `Alike` if their
machines are and if they have stopped for the same fault but for upper bits, if at all. They stay
alike step by step (`masked_step`, `alike_step`), so that the plain loops of their frames come out alike.

Between its own commands a console's machine may also be given commands directly: an `Act` is either.

* `alike_act`, `alike_acts`: what is done to alike consoles is answered alike, and leaves them alike.
* `low_address_bits_suffice`: the same for machines and for consoles, in one statement.
-/

namespace Chip8

/-- To mask a fault twice is to mask it once. -/
theorem Fault.masked_masked (fault : Fault) : fault.masked.masked = fault.masked := by
  cases fault <;> simp only [masked, low_low]

/-- Upper bits make no difference to whether a program can go on. -/
theorem Fault.isRecoverable_congr {fault fault' : Fault} (h : fault.masked = fault'.masked) :
    fault.isRecoverable = fault'.isRecoverable := by
  have hmasked (f : Fault) : f.masked.isRecoverable = f.isRecoverable := by cases f <;> rfl
  rw [← hmasked fault, h, hmasked]

namespace Outcome

/-- The outcome without the upper bits of the program counter in a fault. -/
def masked : Outcome → Outcome
  | stopped fault => stopped fault.masked
  | outcome => outcome

/-- Whether a step got on does not depend on an address. -/
theorem isProgress_masked (outcome : Outcome) : outcome.masked.isProgress = outcome.isProgress := by
  cases outcome <;> rfl

/-- Whether a step ended in a fault does not depend on an address. -/
theorem isStopped_masked (outcome : Outcome) : outcome.masked.isStopped = outcome.isStopped := by
  cases outcome <;> rfl

/-- The status of an outcome does not depend on an address. -/
theorem eq_ran_masked (status : Status) (outcome : Outcome) :
    (.ran status == outcome.masked) = (.ran status == outcome) := by
  cases outcome <;> rfl

section Congr

variable {p : Outcome → Bool} (hp : ∀ outcome : Outcome, p outcome.masked = p outcome)
  {l l' : List Outcome} (h : l.map masked = l'.map masked)
include hp h

/-- Outcomes equal but for upper bits are counted alike by what does not look at these. -/
theorem countP_congr : l.countP p = l'.countP p := by
  have hcomp : p ∘ masked = p := funext hp
  have hcount := congrArg (List.countP p) h
  rwa [List.countP_map, List.countP_map, hcomp] at hcount

/-- Outcomes equal but for upper bits are found alike by what does not look at these. -/
theorem any_congr : l.any p = l'.any p := by
  have hcomp : p ∘ masked = p := funext hp
  have hany := congrArg (List.any · p) h
  rwa [List.any_map, List.any_map, hcomp] at hany

end Congr

end Outcome

namespace Console

/-- The console without the upper bits of code addresses. -/
def masked (console : Console) : Console :=
  { console with machine := console.machine.masked, fault := console.fault.map Fault.masked }

/-- To mask a console twice is to mask it once. -/
theorem masked_masked (console : Console) : console.masked.masked = console.masked := by
  cases hfault : console.fault <;>
    simp [masked, hfault, Machine.masked_masked, Fault.masked_masked]

/-- Key moves look at no code address. -/
theorem deliverAll_masked (m : Machine) (moves : List KeyMove) :
    KeyMove.deliverAll m.masked moves = (KeyMove.deliverAll m moves).masked := by
  have hmove (m : Machine) (move : KeyMove) : move.deliver m.masked = (move.deliver m).masked := by
    cases move with
    | down code => exact Machine.press_masked m code
    | up code => rfl
  rw [KeyMove.deliverAll, KeyMove.deliverAll]
  exact List.foldl_hom Machine.masked hmove

/-- To deliver the queue of the masked console is to mask the console that has delivered it. -/
theorem deliver_masked (console : Console) : console.masked.deliver = console.deliver.masked := by
  simp only [deliver, masked, deliverAll_masked]

/-! ## Alike consoles -/

/-- Consoles that differ in the upper bits of code addresses at most. -/
structure Alike (c d : Console) : Prop where
  machine : c.machine.Alike d.machine
  settings : c.settings = d.settings
  queue : c.queue = d.queue
  fault : c.fault.map Fault.masked = d.fault.map Fault.masked

/-- Consoles are alike if they are the same once masked. -/
theorem alike_iff {c d : Console} : c.Alike d ↔ c.masked = d.masked := by
  constructor
  · rintro ⟨hmachine, hsettings, hqueue, hfault⟩
    simp only [masked, Machine.alike_iff.1 hmachine, hsettings, hqueue, hfault]
  · intro h
    have hsettings : c.masked.settings = d.masked.settings := congrArg settings h
    have hqueue : c.masked.queue = d.masked.queue := congrArg queue h
    exact ⟨Machine.alike_iff.2 (congrArg machine h), hsettings, hqueue, congrArg fault h⟩

/-! ## Steps -/

section Masked

variable (console : Console) {m n : Machine}

/-- With a machine of its own the masked console is still the console, once masked. -/
theorem masked_setMachine (h : m.masked = n.masked) :
    ({ console.masked with machine := m } : Console).masked =
      ({ console with machine := n } : Console).masked := by
  have hfault : console.masked.masked.fault = console.masked.fault :=
    congrArg fault (masked_masked console)
  simp only [masked, h] at hfault ⊢
  rw [hfault]

/-- With a fault of its own the masked console is still the console, once masked. -/
theorem masked_setFault {fault fault' : Fault} (h : fault'.masked = fault.masked) :
    ({ console.masked with fault := some fault' } : Console).masked =
      ({ console with fault := some fault } : Console).masked := by
  simp only [masked, Machine.masked_masked, Option.map_some, h]

end Masked

/-- **One step.** A step of the masked console comes to the same. -/
theorem masked_step (console : Console) :
    console.masked.step.outcome.masked = console.step.outcome.masked ∧
      console.masked.step.console.masked = console.step.console.masked := by
  have hdeliver : console.masked.deliver.machine = console.deliver.machine.masked :=
    congrArg machine (deliver_masked console)
  have hnone (h : console.fault = none) : console.masked.fault = none := by
    rw [masked, h, Option.map_none]
  have hwaiting (h : console.deliver.machine.waiting = false) :
      console.masked.deliver.machine.waiting = false := by
    rw [hdeliver]
    exact h
  -- the cycle of the masked machine comes to the same result, up to the fault it cites
  have hagree := Machine.agree_cycle console.deliver.machine
  rw [← hdeliver] at hagree
  -- the masked console goes the same way as the console does, with the masked fault if there is one
  have hstep := stepped_step console
  generalize console.step.outcome = outcome at hstep ⊢
  generalize console.step.console = after at hstep ⊢
  cases hstep with
  | @frozen fault hfault =>
    have hfault' : console.masked.fault = some fault.masked := by
      rw [masked, hfault, Option.map_some]
    rw [step_of_fault _ hfault']
    exact ⟨congrArg Outcome.stopped fault.masked_masked, masked_masked console⟩
  | awaiting hfault hwait =>
    have hwait' : console.masked.deliver.machine.waiting = true := by
      rw [hdeliver]
      exact hwait
    obtain ⟨houtcome, hconsole⟩ := step_of_stepped (.awaiting (hnone hfault) hwait')
    rw [houtcome, hconsole, deliver_masked, masked_masked]
    exact ⟨rfl, rfl⟩
  | ran hfault hwait hresult =>
    obtain ⟨houtcome, hconsole⟩ :=
      step_of_stepped (.ran (hnone hfault) (hwaiting hwait) (hagree.ok_of_ok hresult))
    have hmachine := hagree.machine
    rw [deliver_masked] at hmachine hconsole
    rw [houtcome, hconsole]
    exact ⟨rfl, masked_setMachine console.deliver hmachine⟩
  | passed hfault hwait hresult hrecover =>
    obtain ⟨fault', hresult', hmasked⟩ := hagree.error_of_error hresult
    have hrecover' : fault'.isRecoverable = true ∧ console.masked.settings.onUnknown = .pass := by
      rw [Fault.isRecoverable_congr hmasked]
      exact hrecover
    obtain ⟨houtcome, hconsole⟩ :=
      step_of_stepped (.passed (hnone hfault) (hwaiting hwait) hresult' hrecover')
    rw [houtcome, hconsole, hdeliver, Machine.fetch_masked, deliver_masked]
    have hpass := Machine.masked_pass (Machine.masked_masked console.deliver.machine)
    exact ⟨rfl, masked_setMachine console.deliver hpass⟩
  | halted hfault hwait hresult hrecover =>
    obtain ⟨fault', hresult', hmasked⟩ := hagree.error_of_error hresult
    have hrecover' : ¬(fault'.isRecoverable = true ∧ console.masked.settings.onUnknown = .pass) := by
      rw [Fault.isRecoverable_congr hmasked]
      exact hrecover
    obtain ⟨houtcome, hconsole⟩ :=
      step_of_stepped (.halted (hnone hfault) (hwaiting hwait) hresult' hrecover')
    rw [houtcome, hconsole, deliver_masked]
    exact ⟨congrArg Outcome.stopped hmasked, masked_setFault console.deliver hmasked⟩

section Alike

variable {c d : Console} (h : c.Alike d)
include h

/-- Alike consoles step to alike consoles, with outcomes equal but for upper bits. -/
theorem alike_step :
    c.step.outcome.masked = d.step.outcome.masked ∧ c.step.console.Alike d.step.console := by
  obtain ⟨houtcome, hconsole⟩ := masked_step c
  obtain ⟨houtcome', hconsole'⟩ := masked_step d
  have hmasked : c.masked = d.masked := alike_iff.1 h
  rw [hmasked] at houtcome hconsole
  exact ⟨houtcome.symm.trans houtcome', alike_iff.2 (hconsole.symm.trans hconsole')⟩

/-- Alike consoles stay alike in any number of steps. -/
theorem alike_afterSteps (count : ℕ) : (c.afterSteps count).Alike (d.afterSteps count) := by
  induction count generalizing c d with
  | zero => exact h
  | succ count ih => exact ih (alike_step h).2

/-- The outcomes of these steps are equal but for upper bits. -/
theorem map_masked_outcomes (count : ℕ) :
    (c.outcomes count).map Outcome.masked = (d.outcomes count).map Outcome.masked := by
  induction count generalizing c d with
  | zero => rfl
  | succ count ih =>
    obtain ⟨houtcome, hconsole⟩ := alike_step h
    rw [outcomes, outcomes, List.map_cons, List.map_cons, houtcome, ih hconsole]

/-! ## Frames -/

/-- A tick looks at no code address. -/
theorem alike_tick :
    ({ c with machine := c.machine.tick } : Console).Alike
      { d with machine := d.machine.tick } := by
  obtain ⟨hmachine, hsettings, hqueue, hfault⟩ := h
  exact ⟨(Machine.alike_perform hmachine .tick).2, hsettings, hqueue, hfault⟩

/-- Frames have the same summary and leave the consoles alike. -/
theorem alike_frame : c.frame.summary = d.frame.summary ∧ c.frame.console.Alike d.frame.console := by
  have hlength : c.settings.frameLength = d.settings.frameLength :=
    congrArg Settings.frameLength h.settings
  have houtcomes := map_masked_outcomes h d.settings.frameLength
  -- all that a summary counts is counted over the outcomes of the steps
  have hinstructions := Outcome.countP_congr Outcome.isProgress_masked houtcomes
  have hredrawn := Outcome.any_congr (Outcome.eq_ran_masked .redraw) houtcomes
  have hstopped := Outcome.any_congr Outcome.isStopped_masked houtcomes
  have hafter := alike_afterSteps h d.settings.frameLength
  have hconsole : c.frame.console.Alike d.frame.console := by
    -- both frames tick, or neither does
    have hsame : c.frame.summary.stopped = d.frame.summary.stopped := by
      rw [summary_frame, summary_frame, hlength, hstopped]
    rw [console_frame, console_frame, hlength, hsame]
    split
    · exact hafter
    · exact alike_tick hafter
  have hsounding : c.frame.console.machine.isSounding = d.frame.console.machine.isSounding := by
    rw [hconsole.machine.rest]
    rfl
  refine ⟨?_, hconsole⟩
  rw [summary_frame, summary_frame, hlength, hinstructions, List.contains_eq_any_beq,
    List.contains_eq_any_beq, hredrawn, hstopped, hsounding]

end Alike

/-! ## Whatever is done -/

/-- The reply without the upper bits of the program counter in a fault. -/
def Reply.masked : Reply → Reply
  | outcome o => outcome o.masked
  | reply => reply

/-- **One command.** Alike consoles answer alike and stay alike. -/
theorem alike_perform {c d : Console} (h : c.Alike d) (command : Command) :
    (c.perform command).reply.masked = (d.perform command).reply.masked ∧
      (c.perform command).console.Alike (d.perform command).console := by
  cases command with
  | enqueue move =>
    obtain ⟨hmachine, hsettings, hqueue, hfault⟩ := h
    exact ⟨rfl, hmachine, hsettings, congrArg (· ++ [move]) hqueue, hfault⟩
  | step =>
    obtain ⟨houtcome, hconsole⟩ := alike_step h
    exact ⟨congrArg Reply.outcome houtcome, hconsole⟩
  | frame =>
    obtain ⟨hsummary, hconsole⟩ := alike_frame h
    exact ⟨congrArg Reply.summary hsummary, hconsole⟩

/-- Something to do to a console, or past it to its machine. -/
inductive Act where
  | machine (command : Machine.Command)
  | console (command : Command)

/-- What is answered to an act. -/
inductive Answer where
  | machine (reply : Machine.Reply)
  | console (reply : Reply)
deriving DecidableEq

/-- The answer without the upper bits of the program counter in a fault. -/
def Answer.masked : Answer → Answer
  | machine reply => machine reply.masked
  | console reply => console reply.masked

/-- Does something to a console or past it to its machine. -/
def act (console : Console) : Act → Answer × Console
  | .machine command =>
    (.machine (console.machine.perform command).reply,
      { console with machine := (console.machine.perform command).machine })
  | .console command =>
    (.console (console.perform command).reply, (console.perform command).console)

/-- Does one thing after the other, and lists the answers. -/
def acts (console : Console) : List Act → List Answer × Console
  | [] => ([], console)
  | first :: rest =>
    let (answer, next) := console.act first
    let (answers, last) := next.acts rest
    (answer :: answers, last)

/-- **One act.** This holds past the console as well, of what is done to its machine. -/
theorem alike_act {c d : Console} (h : c.Alike d) (a : Act) :
    (c.act a).1.masked = (d.act a).1.masked ∧ (c.act a).2.Alike (d.act a).2 := by
  cases a with
  | machine command =>
    obtain ⟨hmachine, hsettings, hqueue, hfault⟩ := h
    obtain ⟨hreply, hmachine'⟩ := Machine.alike_perform hmachine command
    exact ⟨congrArg Answer.machine hreply, hmachine', hsettings, hqueue, hfault⟩
  | console command =>
    obtain ⟨hreply, hconsole⟩ := alike_perform h command
    exact ⟨congrArg Answer.console hreply, hconsole⟩

/-- **A whole run.** Alike consoles answer alike and stay alike. -/
theorem alike_acts {c d : Console} (h : c.Alike d) (l : List Act) :
    (c.acts l).1.map Answer.masked = (d.acts l).1.map Answer.masked ∧
      (c.acts l).2.Alike (d.acts l).2 := by
  induction l generalizing c d with
  | nil => exact ⟨rfl, h⟩
  | cons first rest ih =>
    obtain ⟨hanswer, hnext⟩ := alike_act h first
    obtain ⟨hanswers, hlast⟩ := ih hnext
    refine ⟨?_, hlast⟩
    rw [acts, acts, List.map_cons, List.map_cons, hanswer, hanswers]

/-- **Only the low twelve bits of a code address count.** Machines that differ in the upper bits of
the program counter and of the return addresses at most answer every command alike, up to the upper
bits of an address that a fault cites, and differ no more afterwards. So whatever is done to them, or
to consoles that play them, they differ in code addresses only, and report the same statuses. -/
theorem low_address_bits_suffice :
    (∀ m n : Machine, m.Alike n → ∀ command : Machine.Command,
      (m.perform command).reply.masked = (n.perform command).reply.masked ∧
      (m.perform command).machine.Alike (n.perform command).machine) ∧
    (∀ m n : Machine, m.Alike n → ∀ commands : List Machine.Command,
      (m.replies commands).map Machine.Reply.masked =
        (n.replies commands).map Machine.Reply.masked ∧
      (∀ (i : ℕ) (status : Status), (m.replies commands)[i]? = some (.status status) ↔
        (n.replies commands)[i]? = some (.status status)) ∧
      (m.run commands).Alike (n.run commands) ∧
      ∃ pc calls, n.run commands = { m.run commands with pc, calls }) ∧
    ∀ c d : Console, c.Alike d → ∀ l : List Act,
      (c.acts l).1.map Answer.masked = (d.acts l).1.map Answer.masked ∧
      (c.acts l).2.Alike (d.acts l).2 ∧
      ∃ pc calls, (d.acts l).2.machine = { (c.acts l).2.machine with pc, calls } := by
  refine ⟨fun m n h => Machine.alike_perform h, ?_, ?_⟩
  · intro m n h commands
    obtain ⟨hreplies, hrun⟩ := Machine.alike_run h commands
    refine ⟨hreplies, fun i status => ?_, hrun, _, _, hrun.rest⟩
    rw [← Machine.getElem?_masked_iff, hreplies, Machine.getElem?_masked_iff]
  · intro c d h l
    obtain ⟨hanswers, hlast⟩ := alike_acts h l
    exact ⟨hanswers, hlast, _, _, hlast.machine.rest⟩

/-- A machine with an outstanding call, and the same machine far up: two returns, of which the second
one is refused at different addresses, and a frame played from there. -/
theorem machine_far_up_is_alike :
    let m : Machine :=
      { Machine.fresh .indexed (.ofSeed 0) with calls := ⟨Vector.replicate 16 0x0234, 1⟩ }
    let n : Machine := { m with pc := 0xF200, calls := ⟨Vector.replicate 16 0xA234, 1⟩ }
    let returns : List Machine.Command := [.execute .ret ⟨0x00EE⟩, .execute .ret ⟨0x00EE⟩]
    let c : Console := { machine := m, settings := {}, queue := [.down 0x5], fault := none }
    let d : Console := { c with machine := n }
    let l : List Act := returns.map .machine ++ [.console .frame]
    m.Alike n ∧ c.Alike d ∧ m.replies returns ≠ n.replies returns ∧
      (m.replies returns).map Machine.Reply.masked =
        (n.replies returns).map Machine.Reply.masked ∧
      (c.acts l).1.map Answer.masked = (d.acts l).1.map Answer.masked := by
  intro m n returns c d l
  have hmachine : m.Alike n := ⟨by decide, by decide, rfl, rfl⟩
  have hconsole : c.Alike d := ⟨hmachine, rfl, rfl, rfl⟩
  obtain ⟨-, hruns, hacts⟩ := low_address_bits_suffice
  refine ⟨hmachine, hconsole, ?_, (hruns m n hmachine returns).1, (hacts c d hconsole l).1⟩
  decide

end Console

end Chip8
