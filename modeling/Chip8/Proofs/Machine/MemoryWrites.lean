import Chip8.Proofs.Machine.Run
import Mathlib.Data.List.GetD
import Mathlib.Tactic.ByContra

/-!
# Who writes to memory

Three operations write to memory: one writes decimal digits, and of the two block transfers the
transfer mode says which writes and which reads. What an operation writes is a list of bytes
(`written`), which go to neighbouring cells from the index register on, around the ring
(`memory_effect`). `Memory.Puts` says cell by cell what that means.

* `memory_perform_of_instruction`, `memory_perform_of_none`: what a command makes of the memory.
* `bytes_perform_of_indexed`: in the indexed mode registers are written to the first sixteen cells
  only, so that beyond them a cell changes with a digit that is written to it.
* `bytes_run_of_indexed`: the same of a whole run.
* `memory_writers`: all of this together.
-/

namespace Chip8

namespace Memory

/-- One memory is another one after values were put there from an address on, around the ring: each
value is in its cell, and the other cells are as before. -/
structure Puts (before after : Memory) (address : UInt16) (values : List UInt8) : Prop where
  put : ∀ (j : Nat) (hj : j < values.length) (i : Fin 4096),
    i.val = (address.toNat + j) % 4096 → after.bytes.get i = values[j]
  kept : ∀ i : Fin 4096, (∀ j < values.length, i.val ≠ (address.toNat + j) % 4096) →
    after.bytes.get i = before.bytes.get i

/-- Writing a run of bytes puts each of them in its cell, if the run does not come round to cells that
it has been to. -/
theorem puts_writeAll (m : Memory) (address : UInt16) {values : List UInt8}
    (h : values.length ≤ 4096) : Puts m (m.writeAll address values) address values := by
  -- a cell is told by its distance from the address, which is below 4096 around the ring
  have hbyte (i : Fin 4096) : (m.writeAll address values).bytes.get i =
      values.getD ((UInt16.ofNat i - address).toNat % 4096) (m.bytes.get i) := by
    have hread := read_writeAll m address (UInt16.ofNat i) h
    rwa [read_ofNat, read_ofNat] at hread
  have hoffset (i : Fin 4096) :
      i.val = (address.toNat + (UInt16.ofNat i - address).toNat % 4096) % 4096 := by
    have := address.toNat_lt
    simp only [UInt16.toNat_sub, UInt16.toNat_ofNat']
    omega
  constructor
  · intro j hj i hi
    have hplace : (UInt16.ofNat i - address).toNat % 4096 = j := by
      have := hoffset i
      omega
    rw [hbyte, hplace, List.getD_eq_getElem _ _ hj]
  · intro i hi
    have hlong : values.length ≤ (UInt16.ofNat i - address).toNat % 4096 :=
      Nat.le_of_not_lt fun hshort => hi _ hshort (hoffset i)
    rw [hbyte, List.getD_eq_default _ _ hlong]

end Memory

namespace Machine

/-- What an operation writes to memory, from the index register on. -/
def written (m : Machine) (operation : Operation) (w : Opcode) : List UInt8 :=
  match operation with
  | .digits => decimalDigits (m.registers.get w.x)
  | .storeRun =>
    match m.transfer with
    | .indexed => []
    | .standard => m.registers.window 0 (w.x + 1)
  | .loadRun =>
    match m.transfer with
    | .indexed =>
      if 16 < m.index.toNat + (w.x + 1) then [] else m.registers.window m.index.toNat (w.x + 1)
    | .standard => []
  | _ => []

/-- No operation writes more bytes than there are registers. -/
theorem length_written (m : Machine) (operation : Operation) (w : Opcode) :
    (m.written operation w).length ≤ 16 := by
  have hwindow (base : Nat) : (m.registers.window base (w.x + 1)).length ≤ 16 := by
    rw [RegisterFile.window, List.length_take]
    omega
  cases operation with
  | digits => simp [written, decimalDigits]
  | storeRun =>
    rw [written]
    split
    · exact Nat.zero_le _
    · exact hwindow 0
  | loadRun =>
    rw [written]
    split
    · split
      · exact Nat.zero_le _
      · exact hwindow _
    · exact Nat.zero_le _
  | _ => exact Nat.zero_le _

/-- Most operations write nothing, and neither does a block transfer that reads or is refused. -/
theorem written_eq_nil {m : Machine} {operation : Operation} {w : Opcode}
    (hdigits : operation ≠ .digits) (hstore : ¬(operation = .storeRun ∧ m.transfer = .standard))
    (hload : ¬(operation = .loadRun ∧ m.transfer = .indexed ∧ m.index.toNat + (w.x + 1) ≤ 16)) :
    m.written operation w = [] := by
  cases operation with
  | digits => exact absurd rfl hdigits
  | storeRun =>
    cases hmode : m.transfer with
    | indexed => simp only [written, hmode]
    | standard => exact absurd ⟨rfl, hmode⟩ hstore
  | loadRun =>
    cases hmode : m.transfer with
    | indexed =>
      have hlong : 16 < m.index.toNat + (w.x + 1) :=
        Nat.lt_of_not_le fun hfits => hload ⟨rfl, hmode, hfits⟩
      simp only [written, hmode, if_pos hlong]
    | standard => simp only [written, hmode]
  | _ => rfl

/-- What an operation makes of the memory, also when it is refused. -/
theorem memory_effect (operation : Operation) (w : Opcode) (m : Machine) :
    (operation.effect w m).machine.memory = m.memory.writeAll m.index (m.written operation w) := by
  have hbranches (hbranch : operation.branches = true) :
      (operation.effect w m).machine.memory = m.memory := by
    obtain ⟨calls, pc, heffect⟩ := exists_effect_eq_of_branches hbranch w m
    rw [heffect]
  cases operation with
  | skipIfByte | skipUnlessByte | skipIfSame | skipUnlessSame | skipIfKey | skipUnlessKey =>
    exact hbranches rfl
  | call | ret => exact hbranches rfl
  | storeRun =>
    cases hmode : m.transfer with
    | indexed =>
      simp only [Operation.effect, written, hmode]
      by_cases hlong : 16 < m.index.toNat + (w.x + 1)
      · rw [transferIndexed_of_overrun _ hlong]
        rfl
      · rw [transferIndexed_of_fits _ hlong]
        -- the memory stays closed here: to compare both sides by computation would unfold its bytes
        simp only [Attempt.done, pass, moveIndex, bringRun, Memory.writeAll]
    | standard =>
      simp only [Operation.effect, written, hmode]
      rfl
  | loadRun =>
    cases hmode : m.transfer with
    | indexed =>
      simp only [Operation.effect, written, hmode]
      by_cases hlong : 16 < m.index.toNat + (w.x + 1)
      · rw [transferIndexed_of_overrun _ hlong, if_pos hlong]
        rfl
      · rw [transferIndexed_of_fits _ hlong, if_neg hlong]
        rfl
    | standard =>
      simp only [Operation.effect, written, hmode, Attempt.done, pass, bringRun, Memory.writeAll]
  | _ => rfl

/-! ## Commands -/

section Perform

variable {m : Machine} {command : Command}

/-- A command that sets out to carry out an instruction writes what the instruction writes. -/
theorem memory_perform_of_instruction {operation : Operation} {w : Opcode}
    (h : command.instruction? m = some (operation, w)) :
    (m.perform command).machine.memory = m.memory.writeAll m.index (m.written operation w) := by
  rw [machine_perform_of_instruction h, memory_effect]

/-- What neither sets out to carry out an instruction nor loads a program leaves the memory alone. -/
theorem memory_perform_of_none (h : command.instruction? m = none)
    (hload : ∀ source, command ≠ .load source) :
    (m.perform command).machine.memory = m.memory := by
  have hperformed := performed_perform m command
  rw [completed?_eq_none h] at hperformed
  generalize (m.perform command).reply = reply at hperformed
  generalize (m.perform command).machine = after at hperformed ⊢
  cases hperformed with
  | loaded => exact absurd rfl (hload _)
  | press code => rw [press_eq]
  | refused | awaiting | pass | tick | release | rejected | takeStale => rfl

/-- A command that sets out to carry out an instruction puts in memory what the instruction writes. -/
theorem puts_perform {operation : Operation} {w : Opcode}
    (h : command.instruction? m = some (operation, w)) :
    Memory.Puts m.memory (m.perform command).machine.memory m.index (m.written operation w) := by
  have hlength := length_written m operation w
  rw [memory_perform_of_instruction h]
  exact Memory.puts_writeAll _ _ (by omega)

/-- No command changes how block transfers work. -/
theorem transfer_perform (m : Machine) (command : Command) :
    (m.perform command).machine.transfer = m.transfer := by
  cases hcompleted : command.completed? m with
  | none => exact (untouched_perform hcompleted).transfer
  | some instruction =>
    rw [machine_perform_of_completed hcompleted]
    exact (footprint_effect _ _ m).transfer

end Perform

theorem transfer_run (m : Machine) (commands : List Command) :
    (m.run commands).transfer = m.transfer := by
  induction commands generalizing m with
  | nil => rfl
  | cons command rest ih => rw [run_cons, ih, transfer_perform]

/-! ## Beyond the registers' cells -/

/-- A command carries out the instruction that writes digits, and one of them goes to the cell. -/
def Command.WritesDigit (m : Machine) (command : Command) (i : Fin 4096) : Prop :=
  ∃ w, command.completed? m = some (.digits, w) ∧ ∃ j < 3, i.val = (m.index.toNat + j) % 4096

section Indexed

variable {m : Machine} {i : Fin 4096}

/-- In the indexed mode an instruction that writes to a cell beyond the first sixteen writes digits. -/
theorem eq_digits_of_written {operation : Operation} {w : Opcode} {j : Nat}
    (hmode : m.transfer = .indexed) (hfar : 16 ≤ i.val)
    (hj : j < (m.written operation w).length) (hi : i.val = (m.index.toNat + j) % 4096) :
    operation = .digits ∧ j < 3 := by
  cases operation with
  | digits => exact ⟨rfl, hj⟩
  | storeRun =>
    rw [written, hmode] at hj
    exact absurd hj (Nat.not_lt_zero j)
  | loadRun =>
    simp only [written, hmode] at hj
    split at hj
    · exact absurd hj (Nat.not_lt_zero j)
    · -- the run of registers lies below sixteen, and so do the cells
      simp only [RegisterFile.window, List.length_take] at hj
      omega
  | _ => exact absurd hj (Nat.not_lt_zero j)

/-- **One command.** In the indexed mode a command that loads no program and writes no digit to a cell
beyond the first sixteen leaves the cell alone. -/
theorem bytes_perform_of_indexed {command : Command} (hmode : m.transfer = .indexed)
    (hload : ∀ source, command ≠ .load source) (hfar : 16 ≤ i.val)
    (h : ¬command.WritesDigit m i) :
    (m.perform command).machine.memory.bytes.get i = m.memory.bytes.get i := by
  cases hinstruction : command.instruction? m with
  | none => rw [memory_perform_of_none hinstruction hload]
  | some instruction =>
    refine (puts_perform hinstruction).kept i fun j hj hi => ?_
    obtain ⟨hdigits, hlt⟩ := eq_digits_of_written hmode hfar hj hi
    refine h ⟨instruction.2, completed?_eq_some_iff.2 ⟨?_, ?_⟩, j, hlt, hi⟩
    · rw [hinstruction, ← hdigits]
    · rfl

/-- **A whole run.** In the indexed mode a cell beyond the first sixteen is as before after a run that
loads no program and writes no digit to it. -/
theorem bytes_run_of_indexed {commands : List Command} (hmode : m.transfer = .indexed)
    (hload : ∀ command ∈ commands, ∀ source, command ≠ .load source) (hfar : 16 ≤ i.val)
    (h : ∀ before command, before ++ [command] <+: commands →
      ¬command.WritesDigit (m.run before) i) :
    (m.run commands).memory.bytes.get i = m.memory.bytes.get i := by
  induction commands generalizing m with
  | nil => rfl
  | cons command rest ih =>
    obtain ⟨hcommand, hrest⟩ := List.forall_mem_cons.1 hload
    have hfirst : ¬command.WritesDigit m i := h [] command ⟨rest, rfl⟩
    -- what is left of a run is a run of the machine after the first command
    have hlater : ∀ before later, before ++ [later] <+: rest →
        ¬later.WritesDigit ((m.perform command).machine.run before) i :=
      fun before later hbefore =>
        h (command :: before) later (List.cons_prefix_cons.2 ⟨rfl, hbefore⟩)
    have hmode' := (transfer_perform m command).trans hmode
    rw [run_cons, ih hmode' hrest hlater, bytes_perform_of_indexed hmode hcommand hfar hfirst]

end Indexed

/-- **Who writes to memory.** An operation, whatever opcode has its operands, writes the decimal digits
of `Vx`, or registers from `V0` on in the standard mode, or the registers that the index register
counts in the indexed mode if they all exist: each byte to the cell at its distance from the index
register, around the ring. Nothing else writes to memory, loading a program aside. So in the indexed
mode a cell beyond the first sixteen changes with a digit that is written to it, and in no other
way. -/
theorem memory_writers :
    (∀ (m : Machine) (command : Command) (operation : Operation) (w : Opcode),
      command.instruction? m = some (operation, w) →
      let after := (m.perform command).machine.memory
      let vx := m.registers.get w.x
      (operation = .digits →
        Memory.Puts m.memory after m.index [vx / 100, vx / 10 % 10, vx % 10]) ∧
      (operation = .storeRun → m.transfer = .standard →
        Memory.Puts m.memory after m.index
          (List.ofFn fun j : Fin (w.x + 1) => m.registers.get ⟨j, by omega⟩)) ∧
      (operation = .loadRun → m.transfer = .indexed → ∀ hfits : m.index.toNat + (w.x + 1) ≤ 16,
        Memory.Puts m.memory after m.index
          (List.ofFn fun j : Fin (w.x + 1) => m.registers.get ⟨m.index.toNat + j, by omega⟩)) ∧
      (operation ≠ .digits → ¬(operation = .storeRun ∧ m.transfer = .standard) →
        ¬(operation = .loadRun ∧ m.transfer = .indexed ∧ m.index.toNat + (w.x + 1) ≤ 16) →
        after = m.memory)) ∧
    (∀ (m : Machine) (command : Command), command.instruction? m = none →
      (∀ source, command ≠ .load source) → (m.perform command).machine.memory = m.memory) ∧
    (∀ (m : Machine) (commands : List Command) (i : Fin 4096), m.transfer = .indexed →
      (∀ command ∈ commands, ∀ source, command ≠ .load source) → 16 ≤ i.val →
      (∀ before command, before ++ [command] <+: commands →
        (m.run (before ++ [command])).memory.bytes.get i ≠ (m.run before).memory.bytes.get i →
        command.WritesDigit (m.run before) i) ∧
      ((m.run commands).memory.bytes.get i ≠ m.memory.bytes.get i →
        ∃ before command, before ++ [command] <+: commands ∧
          command.WritesDigit (m.run before) i)) := by
  refine ⟨?_, fun m command h hload => memory_perform_of_none h hload, ?_⟩
  · intro m command operation w h after vx
    have hputs : Memory.Puts m.memory after m.index (m.written operation w) := puts_perform h
    refine ⟨?_, ?_, ?_, ?_⟩
    · rintro rfl
      exact hputs
    · rintro rfl hmode
      have hfits : 0 + (w.x.val + 1) ≤ 16 := by omega
      rw [written, hmode, RegisterFile.window_eq_ofFn _ hfits] at hputs
      simpa only [Nat.zero_add] using hputs
    · rintro rfl hmode hfits
      simpa only [written, hmode, if_neg (Nat.not_lt.2 hfits),
        RegisterFile.window_eq_ofFn _ hfits] using hputs
    · intro hdigits hstore hload
      have hmemory : after = m.memory.writeAll m.index (m.written operation w) :=
        memory_perform_of_instruction h
      rw [hmemory, written_eq_nil hdigits hstore hload, Memory.writeAll]
  · intro m commands i hmode hload hfar
    constructor
    · intro before command hbefore hchanged
      by_contra hnot
      have hcommand := hload command (hbefore.subset (List.mem_append_right _ List.mem_cons_self))
      have hmode' := (transfer_run m before).trans hmode
      refine hchanged ?_
      rw [run_concat, bytes_perform_of_indexed hmode' hcommand hfar hnot]
    · intro hchanged
      by_contra hnot
      refine hchanged (bytes_run_of_indexed hmode hload hfar ?_)
      intro before command hbefore hwrites
      exact hnot ⟨before, command, hbefore, hwrites⟩

/-- Around the end of memory, digits are written in the indexed mode and registers in the standard mode.
Low down, registers are written in the indexed mode. -/
theorem digits_and_registers_written :
    let m : Machine := { fresh .indexed (.ofSeed 0) with
      memory := ⟨Vector.replicate 4096 7⟩
      index := 0xFFF
      registers := ⟨Vector.ofFn fun r => UInt8.ofNat (200 + r)⟩ }
    let standard : Machine := { m with transfer := .standard }
    let low : Machine := { m with index := 14 }
    let digits : Command := .execute .digits ⟨0xF433⟩
    let store : Command := .execute .storeRun ⟨0xF155⟩
    let load : Command := .execute .loadRun ⟨0xF165⟩
    let last : Fin 4096 := 4095
    ((m.perform digits).machine.memory.bytes.get last = 2 ∧
      (standard.perform store).machine.memory.bytes.get 0 = 201 ∧
      (low.perform load).machine.memory.bytes.get 15 = 215 ∧
      (m.perform store).machine.memory = m.memory) ∧
    (m.perform .tick).machine.memory = m.memory ∧
    (m.run [.tick, digits]).memory.bytes.get last ≠ m.memory.bytes.get last ∧
      ∃ before command, before ++ [command] <+: [.tick, digits] ∧
        command.WritesDigit (m.run before) last := by
  intro m standard low digits store load last
  obtain ⟨hwriters, hothers, hruns⟩ := memory_writers
  have hdigits := (hwriters m digits .digits ⟨0xF433⟩ rfl).1 rfl
  have hstore := (hwriters standard store .storeRun ⟨0xF155⟩ rfl).2.1 rfl rfl
  have hload := (hwriters low load .loadRun ⟨0xF165⟩ rfl).2.2.1 rfl rfl (by decide)
  have hread := (hwriters m store .storeRun ⟨0xF155⟩ rfl).2.2.2 (by decide) (by decide) (by decide)
  have htick := hothers m .tick rfl (by simp)
  have hchanged : (m.run [.tick, digits]).memory.bytes.get last ≠ m.memory.bytes.get last := by
    have hlater := ((hwriters m.tick digits .digits ⟨0xF433⟩ rfl).1 rfl).put 0 (by decide) last rfl
    have hbefore : m.memory.bytes.get last = 7 := by simp [m, Vector.get]
    have hrun : m.run [.tick, digits] = (m.tick.perform digits).machine := rfl
    rw [hrun, hbefore, hlater]
    decide
  refine ⟨⟨?_, ?_, ?_, hread⟩, htick, hchanged, ?_⟩
  · exact (hdigits.put 0 (by decide) last rfl).trans (by decide)
  · exact (hstore.put 1 (by decide) 0 (by decide)).trans (by decide)
  · exact (hload.put 1 (by decide) 15 rfl).trans (by decide)
  · exact (hruns m [.tick, digits] last rfl (by simp [digits]) (by decide)).2 hchanged

end Machine

end Chip8
