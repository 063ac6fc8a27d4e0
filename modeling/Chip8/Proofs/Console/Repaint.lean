import Chip8.Proofs.Console.PlainLoop
import Chip8.Proofs.Machine.Repaint

/-!
# What a presenter is told

Whoever presents the display hears of changes in two ways: by taking the flag of the display, and by
the summaries of the frames. Neither misses a change.

* `display_step`, `display_afterSteps`: steps that do not come out as a repaint leave the display
  alone, and after one that does the flag is up.
* `presenter_misses_nothing`: what the flag tells at any point of a run, and what a summary tells.
-/

namespace Chip8

namespace KeyMove

/-- Key moves leave the display alone. -/
theorem display_deliverAll (m : Machine) (moves : List KeyMove) :
    (deliverAll m moves).display = m.display := by
  rw [deliverAll_eq]

end KeyMove

namespace Machine

/-- A cycle that says so has repainted the display, and one that does not has left it alone. -/
theorem display_cycle {m : Machine} {status : Status} (h : m.cycle.result = .ok status) :
    (status = .redraw → m.cycle.machine.display.stale = true) ∧
      (status ≠ .redraw → m.cycle.machine.display = m.display) := by
  have hreply : (m.perform .cycle).reply = .status status := by
    rw [perform, Response.ofInstruction, h]
  rw [← machine_perform_cycle]
  constructor
  · rintro rfl
    exact stale_perform ((reply_redraw_iff m .cycle).1 hreply)
  · intro hstatus
    refine display_perform (fun hrepaints => hstatus ?_) (by decide)
    rw [(reply_redraw_iff m .cycle).2 hrepaints] at hreply
    exact (Reply.status.inj hreply).symm

end Machine

namespace Console

/-! ## Steps -/

/-- **One step.** -/
theorem display_step (console : Console) :
    (console.step.outcome = .ran .redraw → console.step.console.machine.display.stale = true) ∧
      (console.step.outcome ≠ .ran .redraw →
        console.step.console.machine.display = console.machine.display) := by
  have hstep := stepped_step console
  have hdeliver : console.deliver.machine.display = console.machine.display :=
    KeyMove.display_deliverAll _ _
  generalize console.step.outcome = outcome at hstep ⊢
  generalize console.step.console = after at hstep ⊢
  cases hstep with
  | frozen => exact ⟨nofun, fun _ => rfl⟩
  | awaiting | passed | halted => exact ⟨nofun, fun _ => hdeliver⟩
  | @ran _ _ status hresult =>
    obtain ⟨hstale, hsame⟩ := Machine.display_cycle hresult
    constructor
    · intro h
      exact hstale (Outcome.ran.inj h)
    · intro h
      exact (hsame fun hstatus => h (congrArg Outcome.ran hstatus)).trans hdeliver

/-- **Some steps.** -/
theorem display_afterSteps (console : Console) (count : ℕ) :
    (.ran .redraw ∈ console.outcomes count →
        (console.afterSteps count).machine.display.stale = true) ∧
      (.ran .redraw ∉ console.outcomes count →
        (console.afterSteps count).machine.display = console.machine.display) := by
  induction count generalizing console with
  | zero => exact ⟨fun h => absurd h List.not_mem_nil, fun _ => rfl⟩
  | succ count ih =>
    obtain ⟨hstale, hsame⟩ := display_step console
    obtain ⟨hstales, hsames⟩ := ih console.step.console
    rw [outcomes, afterSteps, List.mem_cons, not_or]
    constructor
    · intro h
      by_cases hlater : .ran .redraw ∈ console.step.console.outcomes count
      · exact hstales hlater
      · -- the flag that the first step has put up is not touched by the others
        rw [hsames hlater]
        exact hstale (h.resolve_right hlater).symm
    · rintro ⟨hfirst, hlater⟩
      rw [hsames hlater, hsame (Ne.symm hfirst)]

/-- The tick of a frame leaves the display alone. -/
theorem display_frame (console : Console) :
    console.frame.console.machine.display =
      (console.afterSteps console.settings.frameLength).machine.display := by
  rw [console_frame]
  split <;> rfl

/-- **A presenter misses nothing.** Take the flag of the display at any point of the life of a machine:
it is up just if the display was cleared or drawn on since it was last taken, or else since the
machine was new, so that with the flag down the plane is the one that was there then. A command
reports a repaint just when it cleared the display or drew on it, and any other one leaves plane and
flag alone, but for taking the flag. A frame that does not tell of a repaint leaves plane and flag
alone, and after one that does the flag is up. -/
theorem presenter_misses_nothing :
    (∀ (settings : Settings) (entropy : ChaCha.Key) (before since : List Machine.Command),
      let new := Machine.ofSettings settings entropy
      let last := new.run before
      let now := new.run (before ++ since)
      (before = [] ∨ ∃ earlier, before = earlier ++ [.takeStale]) → .takeStale ∉ since →
      ∃ flag, (now.perform .takeStale).reply = .stale flag ∧
        (flag = true ↔
          ∃ instruction ∈ last.completed since, instruction.1 = .clear ∨ instruction.1 = .draw) ∧
        (flag = false → now.display.plane = last.display.plane)) ∧
    (∀ (m : Machine) (command : Machine.Command),
      ((m.perform command).reply = .status .redraw ↔
        ∃ instruction ∈ command.completed? m, instruction.1 = .clear ∨ instruction.1 = .draw) ∧
      ((m.perform command).reply ≠ .status .redraw → command ≠ .takeStale →
        (m.perform command).machine.display = m.display) ∧
      (m.perform .takeStale).machine.display.plane = m.display.plane) ∧
    (∀ console : Console,
      (console.frame.summary.redrawn = false →
        console.frame.console.machine.display = console.machine.display) ∧
      (console.frame.summary.redrawn = true →
        console.frame.console.machine.display.stale = true)) := by
  refine ⟨?_, ?_, ?_⟩
  · intro settings entropy before since new last now hbefore hsince
    have hnow : now = last.run since := Machine.run_append new before since
    -- the flag is down at the mark, since it has just been taken or the machine is new
    have hdown : last.display.stale = false := by
      rcases hbefore with rfl | ⟨earlier, rfl⟩
      · rfl
      · rw [show last = _ from Machine.run_concat new earlier .takeStale]
        rfl
    have hflag : now.display.stale = true ↔ last.Repainted since := by
      rw [hnow, Machine.stale_run hsince, hdown]
      simp
    refine ⟨now.display.stale, rfl, hflag, fun h => ?_⟩
    have hnot : ¬last.Repainted since := by
      rw [← hflag, h]
      decide
    rw [hnow, Machine.display_run hsince hnot]
  · intro m command
    refine ⟨Machine.reply_redraw_iff m command, ?_, rfl⟩
    intro hreply hcommand
    exact Machine.display_perform (mt (Machine.reply_redraw_iff m command).2 hreply) hcommand
  · intro console
    obtain ⟨hstale, hsame⟩ := display_afterSteps console console.settings.frameLength
    rw [summary_frame, display_frame]
    constructor
    · intro h
      exact hsame (by simpa using h)
    · intro h
      exact hstale (by simpa using h)

/-- A display is cleared and its flag taken. The next clearing puts the flag up again, and a tick does
not. A console whose program draws with every instruction tells of it in its first frame, and one
whose program waits for a key has nothing to tell. -/
theorem repaints_are_told :
    let settings : Settings := { frameLength := 1, seed := some 0 }
    let clear : Machine.Command := .execute .clear ⟨0x00E0⟩
    let taken := (Machine.ofSettings settings (Vector.replicate 8 0)).run [clear, .takeStale]
    let drawing : Console :=
      { machine := { taken with memory := ⟨Vector.replicate 4096 0xDD⟩ }, settings, queue := [],
        fault := none }
    let idle : Console := { drawing with machine := { drawing.machine with waiting := true } }
    (∃ flag, ((taken.run [.tick, clear]).perform .takeStale).reply = .stale flag ∧ flag = true) ∧
      (taken.run [.tick]).display.plane = taken.display.plane ∧
      (taken.perform (.press 0x5)).machine.display = taken.display ∧
      drawing.frame.console.machine.display.stale = true ∧
      idle.frame.console.machine.display = idle.machine.display := by
  intro settings clear taken drawing idle
  obtain ⟨hflag, hreply, hframe⟩ := presenter_misses_nothing
  have htaken : [clear, .takeStale] = [] ∨ ∃ earlier, [clear, .takeStale] = earlier ++ [.takeStale] :=
    .inr ⟨[clear], rfl⟩
  obtain ⟨cleared, hcleared, hup, -⟩ :=
    hflag settings (Vector.replicate 8 0) _ [.tick, clear] htaken (by decide)
  obtain ⟨ticked, -, hdown, hplane⟩ :=
    hflag settings (Vector.replicate 8 0) _ [.tick] htaken (by decide)
  have hticked : ticked = false := by
    refine Bool.eq_false_iff.2 fun h => ?_
    obtain ⟨_, hmem, -⟩ := hdown.1 h
    cases hmem
  -- every opcode of this program is a draw
  have hfetch : drawing.deliver.machine.fetch = ⟨0xDDDD⟩ := by
    rw [Machine.fetch, show drawing.deliver.machine.memory = ⟨Vector.replicate 4096 0xDD⟩ from rfl]
    simp [Memory.word, Memory.read]
  have hdrawn : drawing.outcomes 1 = [.ran .redraw] := by
    have hdecode : DecodingTable.standard.decode? drawing.deliver.machine.fetch = some .draw := by
      rw [hfetch]
      decide
    have hcycle : drawing.deliver.machine.cycle.result = .ok .redraw := by
      rw [Machine.cycle_of_decode rfl hdecode, Machine.result_execute]
      rfl
    rw [outcomes, outcomes, (step_of_stepped (.ran rfl rfl hcycle)).1]
  have hredrawn : drawing.frame.summary.redrawn = true := by
    rw [summary_frame, show drawing.settings.frameLength = 1 from rfl, hdrawn]
    rfl
  refine ⟨⟨cleared, hcleared, hup.2 ⟨(.clear, ⟨0x00E0⟩), ?_, .inl rfl⟩⟩, hplane hticked, ?_, ?_, ?_⟩
  · exact List.mem_singleton.2 rfl
  · exact (hreply taken (.press 0x5)).2.1 (by decide) (by decide)
  · exact (hframe drawing).2 hredrawn
  · exact (hframe idle).1 (by decide)

end Console

end Chip8
