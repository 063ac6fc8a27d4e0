import Chip8.Proofs.Machine.TransferMode

/-!
# Block transfers

A block transfer takes a run of registers to memory or brings a run of bytes from there. Which of the
two an operation does is for the transfer mode to say (`TransferMode.move`): the modes are opposite. In
the standard mode runs begin at `V0` and the index register stays; in the indexed mode it counts the
registers as well, and is moved past the run.

* `execute_of_standard`, `execute_of_indexed`, `execute_of_overrun`: what a transfer comes to.
* `registers_bringRun_takeRun`, `takeRun_bringRun`: what has been taken is brought back, and what has
  been brought need not be taken.
* `move_append`: two runs, one after the other, move like one.
* `standard_transfers_invert`, `indexed_transfers_compose`: what follows in each of the two modes.
-/

namespace Chip8

open Machine

/-- What a transfer does in a mode: it takes registers to memory, or brings bytes from there. -/
def TransferMode.move : TransferMode → Operation → Machine → Nat → Nat → Machine
  | .standard, .storeRun | .indexed, .loadRun => takeRun
  | .standard, _ | .indexed, _ => bringRun

namespace Machine

variable {m : Machine} {operation : Operation} {w v : Opcode} {base i j : Nat}

/-! ## One run -/

/-- Whatever the mode, a block transfer is one of two runs. -/
theorem move_eq_takeRun_or_bringRun (mode : TransferMode) (operation : Operation) :
    mode.move operation = takeRun ∨ mode.move operation = bringRun := by
  unfold TransferMode.move
  split
  · exact .inl rfl
  · exact .inl rfl
  · exact .inr rfl
  · exact .inr rfl

/-- A run does not move the index register. -/
@[simp] theorem index_move (m : Machine) (mode : TransferMode) (operation : Operation)
    (base count : Nat) : (mode.move operation m base count).index = m.index := by
  rcases move_eq_takeRun_or_bringRun mode operation with hmove | hmove
  · simp only [hmove, takeRun]
  · simp only [hmove, bringRun]

/-- A run does not change the mode. -/
@[simp] theorem transfer_move (m : Machine) (mode : TransferMode) (operation : Operation)
    (base count : Nat) : (mode.move operation m base count).transfer = m.transfer := by
  rcases move_eq_takeRun_or_bringRun mode operation with hmove | hmove
  · simp only [hmove, takeRun]
  · simp only [hmove, bringRun]

/-- A run does not look at the program counter. -/
theorem move_pass (m : Machine) (mode : TransferMode) (operation : Operation) (base count : Nat) :
    mode.move operation m.pass base count = (mode.move operation m base count).pass := by
  rcases move_eq_takeRun_or_bringRun mode operation with hmove | hmove
  · simp only [hmove, takeRun, pass]
  · simp only [hmove, bringRun, pass]

/-- A run does not look at the mode. -/
theorem move_setTransfer (m : Machine) (mode other : TransferMode) (operation : Operation)
    (base count : Nat) :
    mode.move operation (m.setTransfer other) base count =
      (mode.move operation m base count).setTransfer other := by
  rcases move_eq_takeRun_or_bringRun mode operation with hmove | hmove
  · simp only [hmove, takeRun, setTransfer]
  · simp only [hmove, bringRun, setTransfer]

/-- The index register and the program counter are moved independently. -/
theorem moveIndex_pass (m : Machine) (count : Nat) :
    m.pass.moveIndex count = (m.moveIndex count).pass :=
  rfl

/-- To move the index register twice is to move it by the sum. -/
theorem moveIndex_moveIndex (m : Machine) (i j : Nat) :
    (m.moveIndex i).moveIndex j = m.moveIndex (i + j) := by
  simp only [moveIndex, UInt16.ofNat_add, UInt16.add_assoc]

/-- A transfer in the standard mode is carried out, from `V0` on. -/
theorem execute_of_standard (hrun : operation.MovesRun) (hmode : m.transfer = .standard)
    (w : Opcode) :
    m.execute operation w =
      { result := .ok .proceed
        machine := (TransferMode.standard.move operation m 0 (w.x + 1)).pass
        log := [.dispatched m.pc w operation] } := by
  rw [execute_eq]
  rcases hrun with rfl | rfl
  · simp only [Operation.effect, hmode, Attempt.done, Except.map, Operation.status, TransferMode.move]
  · simp only [Operation.effect, hmode, Attempt.done, Except.map, Operation.status, TransferMode.move]

/-- What a transfer in the standard mode leaves for the next one: the mode, and the index register as
it was. -/
theorem transfer_and_index_of_standard (hrun : operation.MovesRun) (hmode : m.transfer = .standard)
    (w : Opcode) :
    let after := (m.execute operation w).machine
    after.transfer = .standard ∧ after.index = m.index := by
  intro after
  have hafter : after = _ := congrArg Attempt.machine (execute_of_standard hrun hmode w)
  constructor
  · simpa only [hafter, pass, transfer_move] using hmode
  · simp only [hafter, pass, index_move]

/-- A transfer in the indexed mode is carried out if its registers exist, and moves the index register
past its run. -/
theorem execute_of_indexed (hrun : operation.MovesRun) (hmode : m.transfer = .indexed)
    (hfits : m.index.toNat + (w.x + 1) ≤ 16) :
    m.execute operation w =
      { result := .ok .proceed
        machine :=
          ((TransferMode.indexed.move operation m m.index.toNat (w.x + 1)).moveIndex (w.x + 1)).pass
        log := [.dispatched m.pc w operation] } := by
  have hshort : ¬16 < m.index.toNat + (w.x + 1) := Nat.not_lt.2 hfits
  rw [execute_eq]
  rcases hrun with rfl | rfl
  · simp only [Operation.effect, hmode, transferIndexed_of_fits _ hshort, Attempt.done, Except.map,
      Operation.status, TransferMode.move]
  · simp only [Operation.effect, hmode, transferIndexed_of_fits _ hshort, Attempt.done, Except.map,
      Operation.status, TransferMode.move]

/-- What a transfer in the indexed mode leaves for the next one: the mode, and the index register past
its run. -/
theorem transfer_and_index_of_indexed (hrun : operation.MovesRun) (hmode : m.transfer = .indexed)
    (hfits : m.index.toNat + (w.x + 1) ≤ 16) :
    let after := (m.execute operation w).machine
    after.transfer = .indexed ∧ after.index = m.index + UInt16.ofNat (w.x + 1) ∧
      after.index.toNat = m.index.toNat + (w.x + 1) := by
  intro after
  have hafter : after = _ := congrArg Attempt.machine (execute_of_indexed hrun hmode hfits)
  have hindex : after.index = m.index + UInt16.ofNat (w.x + 1) := by
    simp only [hafter, pass, moveIndex, index_move]
  refine ⟨?_, hindex, ?_⟩
  · simpa only [hafter, pass, moveIndex, transfer_move] using hmode
  · rw [hindex, UInt16.toNat_add, UInt16.toNat_ofNat']
    omega

/-- A transfer in the indexed mode is refused, without a trace, if not all its registers exist. -/
theorem execute_of_overrun (hrun : operation.MovesRun) (hmode : m.transfer = .indexed)
    (hlong : 16 < m.index.toNat + w.x + 1) :
    (m.execute operation w).result = .error (.windowOverrun m.index (w.x + 1)) ∧
      (m.execute operation w).machine = m := by
  have hresult : (m.execute operation w).result = .error (.windowOverrun m.index (w.x + 1)) := by
    rw [execute_error_iff, refusal?_eq_some_iff]
    exact .inr (.inr ⟨hrun, hmode, hlong, rfl⟩)
  exact ⟨hresult, machine_execute_of_error hresult⟩

/-! ## There and back -/

/-- Registers that have been taken to memory are brought back, whatever the registers hold by then. -/
theorem registers_bringRun_takeRun (m : Machine) (registers : RegisterFile)
    (hfits : base + i ≤ 16) (h : j ≤ i) :
    ({ m.takeRun base i with registers }.bringRun base j).registers =
      registers.overwrite base (m.registers.window base j) := by
  have hlength := m.registers.length_window hfits
  simp only [bringRun, takeRun]
  rw [Memory.slice_writeAll _ _ (by omega) (by omega), m.registers.take_window base h]

/-- Bytes that have been brought to registers are in memory already. -/
theorem takeRun_bringRun (m : Machine) (hfits : base + i ≤ 16) (h : j ≤ i) :
    (m.bringRun base i).takeRun base j = m.bringRun base i := by
  have hlength := m.memory.length_slice m.index i
  simp only [takeRun, bringRun]
  rw [RegisterFile.window_overwrite _ (by omega) (by omega), Memory.take_slice _ _ h,
    Memory.writeAll_slice]

/-! ## One run after the other -/

/-- Registers taken to memory in two runs lie there as if taken in one. -/
theorem takeRun_append (m : Machine) (h : base + i ≤ 16) (j : Nat) :
    ((m.takeRun base i).moveIndex i).takeRun (base + i) j =
      (m.takeRun base (i + j)).moveIndex i := by
  simp only [takeRun, moveIndex]
  rw [RegisterFile.window_add, Memory.writeAll_append, m.registers.length_window h]

/-- Bytes brought to registers in two runs are there as if brought in one. -/
theorem bringRun_append (m : Machine) (base i j : Nat) :
    ((m.bringRun base i).moveIndex i).bringRun (base + i) j =
      (m.bringRun base (i + j)).moveIndex i := by
  simp only [bringRun, moveIndex]
  rw [Memory.slice_add, RegisterFile.overwrite_append, Memory.length_slice]

/-- Two runs, the second one from where the first one ends, move like one. -/
theorem move_append (m : Machine) (mode : TransferMode) (operation : Operation)
    (h : base + i ≤ 16) (j : Nat) :
    mode.move operation ((mode.move operation m base i).moveIndex i) (base + i) j =
      (mode.move operation m base (i + j)).moveIndex i := by
  rcases move_eq_takeRun_or_bringRun mode operation with hmove | hmove
  · rw [hmove]
    exact takeRun_append m h j
  · rw [hmove]
    exact bringRun_append m base i j

/-- Two transfers in the indexed mode come to one of all their registers, but for the program
counter. -/
theorem machine_execute_execute_of_indexed (hrun : operation.MovesRun)
    (hmode : m.transfer = .indexed) {u : Opcode} (hu : u.x.val = w.x + v.x + 1)
    (hfits : m.index.toNat + w.x + v.x + 2 ≤ 16) :
    ((m.execute operation w).machine.execute operation v).result = .ok .proceed ∧
      ((m.execute operation w).machine.execute operation v).machine =
        (m.execute operation u).machine.pass := by
  have hfirst : m.index.toNat + (w.x + 1) ≤ 16 := by omega
  have hcount : u.x.val + 1 = (w.x + 1) + (v.x + 1) := by omega
  obtain ⟨hmode', -, hindex⟩ := transfer_and_index_of_indexed hrun hmode hfirst
  -- the second run starts at the register where the first one has ended
  have hsecond : (m.execute operation w).machine.index.toNat + (v.x + 1) ≤ 16 := by omega
  rw [execute_of_indexed hrun hmode' hsecond, hindex, execute_of_indexed hrun hmode hfirst,
    execute_of_indexed (w := u) hrun hmode (by omega), hcount]
  refine ⟨rfl, ?_⟩
  simp only [move_pass, move_append m .indexed operation hfirst, moveIndex_pass]
  rw [moveIndex_moveIndex _ (w.x + 1) (v.x + 1)]

/-- Of two transfers in the indexed mode the second one is refused if the registers end before it
does, with the first one carried out. One transfer of them all is refused as a whole. -/
theorem execute_execute_of_overrun (hrun : operation.MovesRun) (hmode : m.transfer = .indexed)
    (hfits : m.index.toNat + w.x + 1 ≤ 16) (hlong : 16 < m.index.toNat + w.x + v.x + 2) :
    (let first := (m.execute operation w).machine
      let second := first.execute operation v
      second.result = .error (.windowOverrun (m.index + UInt16.ofNat (w.x + 1)) (v.x + 1)) ∧
        second.machine = first) ∧
    ∀ u : Opcode, u.x.val = w.x + v.x + 1 →
      (m.execute operation u).result = .error (.windowOverrun m.index (w.x + v.x + 2)) ∧
        (m.execute operation u).machine = m := by
  constructor
  · intro first second
    obtain ⟨hmode', hindex, hplace⟩ := transfer_and_index_of_indexed hrun hmode hfits
    have hlate : 16 < first.index.toNat + v.x + 1 := by
      rw [hplace]
      omega
    rw [← hindex]
    exact execute_of_overrun hrun hmode' hlate
  · intro u hu
    have hcount : w.x.val + v.x + 2 = u.x + 1 := by omega
    rw [hcount]
    exact execute_of_overrun hrun hmode (by omega)

/-! ## Back in the indexed mode -/

/-- In the indexed mode registers that have been taken to memory are brought back from where they
are, whatever the registers hold by then. -/
theorem get_execute_execute_of_indexed (hmode : m.transfer = .indexed)
    (hfits : m.index.toNat + (w.x + 1) ≤ 16) (hsame : v.x = w.x) (registers : RegisterFile) :
    let loaded := m.execute .loadRun w
    let refilled := { loaded.machine with registers, index := m.index }
    let stored := refilled.execute .storeRun v
    (loaded.result = .ok .proceed ∧ stored.result = .ok .proceed) ∧
      ∀ r, stored.machine.registers.get r =
        if m.index.toNat ≤ r.val ∧ r.val < m.index.toNat + (w.x + 1) then m.registers.get r
        else registers.get r := by
  intro loaded refilled stored
  have hloaded : loaded = _ := execute_of_indexed (.inr rfl) hmode hfits
  have hmode' : refilled.transfer = .indexed :=
    (transfer_and_index_of_indexed (.inr rfl) hmode hfits).1
  have hfits' : refilled.index.toNat + (v.x + 1) ≤ 16 := by
    rw [hsame]
    exact hfits
  have hstored : stored = _ := execute_of_indexed (.inl rfl) hmode' hfits'
  have hrefilled : refilled =
      { m.takeRun m.index.toNat (w.x + 1) with registers }.pass := by
    simp only [refilled, hloaded, TransferMode.move, pass, moveIndex, takeRun]
  -- the registers at the time of the second transfer do not matter for those it brings back
  have hback : (TransferMode.indexed.move .storeRun
      { m.takeRun m.index.toNat (w.x + 1) with registers } m.index.toNat (w.x + 1)).registers = _ :=
    registers_bringRun_takeRun m registers hfits (Nat.le_refl _)
  refine ⟨⟨by rw [hloaded], by rw [hstored]⟩, fun r => ?_⟩
  have hplace : refilled.index = m.index := rfl
  rw [hstored, hplace, hsame, hrefilled, move_pass, moveIndex_pass]
  simp only [pass, moveIndex, hback, RegisterFile.get_overwrite_window _ _ hfits]

/-- Where the index register is zero, a transfer in the indexed mode is what the other one is in the
standard mode, but for the index register. -/
theorem execute_of_indexed_of_zero {other : Operation} (hrun : operation.MovesRun)
    (hother : other.MovesRun)
    (hopposite : TransferMode.indexed.move operation = TransferMode.standard.move other)
    (hmode : m.transfer = .indexed) (hzero : m.index = 0) (hsame : v.x = w.x) :
    let indexed := m.execute operation w
    let standard := (m.setTransfer .standard).execute other v
    (indexed.result = .ok .proceed ∧ standard.result = .ok .proceed) ∧
      indexed.machine = { standard.machine with
        index := UInt16.ofNat (w.x + 1)
        transfer := .indexed } := by
  intro indexed standard
  have hplace : m.index.toNat = 0 := by rw [hzero]; rfl
  have hindexed : indexed = _ := execute_of_indexed hrun hmode (by omega)
  have hstandard : standard = _ := execute_of_standard hother rfl v
  refine ⟨⟨by rw [hindexed], by rw [hstandard]⟩, ?_⟩
  have hindex := index_move m .standard other 0 (w.x + 1)
  have htransfer := transfer_move m .standard other 0 (w.x + 1)
  rw [hindexed, hstandard, hplace, hsame, hopposite, move_setTransfer]
  rw [hzero] at hindex
  rw [hmode] at htransfer
  simp only [pass, moveIndex, setTransfer, hindex, htransfer, UInt16.zero_add]

/-! ## The two modes -/

/-- In the standard mode a transfer brings back what one of at least as many registers has stored,
whatever the registers hold by then, and what has been loaded is in memory already. Neither transfer
is ever refused, and neither moves the index register. -/
theorem standard_transfers_invert (m : Machine) (hmode : m.transfer = .standard) (w v : Opcode)
    (hle : v.x ≤ w.x) :
    (∀ registers : RegisterFile,
      let stored := m.execute .storeRun w
      let refilled := { stored.machine with registers }
      let loaded := refilled.execute .loadRun v
      (stored.result = .ok .proceed ∧ loaded.result = .ok .proceed) ∧
        (stored.machine.index = m.index ∧ loaded.machine.index = m.index) ∧
        ∀ r, loaded.machine.registers.get r =
          if r ≤ v.x then m.registers.get r else registers.get r) ∧
    (let loaded := m.execute .loadRun w
      let stored := loaded.machine.execute .storeRun v
      (loaded.result = .ok .proceed ∧ stored.result = .ok .proceed) ∧
        (loaded.machine.index = m.index ∧ stored.machine.index = m.index) ∧
        stored.machine.memory = m.memory) := by
  have hcount : v.x.val + 1 ≤ w.x.val + 1 := Nat.succ_le_succ hle
  have hfits : 0 + (w.x.val + 1) ≤ 16 := by omega
  have hfits' : 0 + (v.x.val + 1) ≤ 16 := by omega
  constructor
  · intro registers stored refilled loaded
    have hstored : stored = _ := execute_of_standard (.inl rfl) hmode w
    obtain ⟨hmode', hindex⟩ := transfer_and_index_of_standard (m := m) (.inl rfl) hmode w
    have hrefilled : refilled = { m.takeRun 0 (w.x + 1) with registers }.pass := by
      simp only [refilled, hstored, TransferMode.move, pass, takeRun]
    have hloaded : loaded = _ := execute_of_standard (m := refilled) (.inr rfl) hmode' v
    have hback : (TransferMode.standard.move .loadRun
        { m.takeRun 0 (w.x + 1) with registers } 0 (v.x + 1)).registers = _ :=
      registers_bringRun_takeRun m registers hfits hcount
    refine ⟨⟨by rw [hstored], by rw [hloaded]⟩, ⟨hindex, ?_⟩, fun r => ?_⟩
    · exact (transfer_and_index_of_standard (m := refilled) (.inr rfl) hmode' v).2.trans hindex
    · have hbelow : 0 ≤ r.val ∧ r.val < 0 + (v.x.val + 1) ↔ r ≤ v.x := by
        rw [Fin.le_def]
        omega
      rw [hloaded, hrefilled, move_pass]
      simp only [pass, hback, RegisterFile.get_overwrite_window _ _ hfits', hbelow]
  · intro loaded stored
    have hloaded : loaded = _ := execute_of_standard (.inr rfl) hmode w
    obtain ⟨hmode', hindex⟩ := transfer_and_index_of_standard (m := m) (.inr rfl) hmode w
    have hstored : stored = _ := execute_of_standard (m := loaded.machine) (.inl rfl) hmode' v
    have hmove : TransferMode.standard.move .storeRun
        (TransferMode.standard.move .loadRun m 0 (w.x + 1)) 0 (v.x + 1) = _ :=
      takeRun_bringRun m hfits hcount
    refine ⟨⟨by rw [hloaded], by rw [hstored]⟩, ⟨hindex, ?_⟩, ?_⟩
    · exact (transfer_and_index_of_standard (m := loaded.machine) (.inl rfl) hmode' v).2.trans hindex
    · rw [hstored, hloaded, move_pass, hmove]
      simp only [pass, bringRun]

/-- Four registers stored across the end of memory, of which two are brought back. -/
theorem standard_transfers_invert_around_the_end :
    let m : Machine := { fresh .standard (.ofSeed 0) with
      memory := ⟨Vector.replicate 4096 7⟩
      registers := ⟨Vector.ofFn fun r => UInt8.ofNat (200 + r)⟩
      index := 0xFFFE }
    let store : Opcode := ⟨0xF355⟩
    let load : Opcode := ⟨0xF165⟩
    let stored := (m.execute .storeRun store).machine
    let loaded := ({ stored with registers := .zero }.execute .loadRun load).machine
    let kept := ((m.execute .loadRun store).machine.execute .storeRun load).machine
    m.transfer = .standard ∧ load.x ≤ store.x ∧
      loaded.index = 0xFFFE ∧
      (loaded.registers.get 0, loaded.registers.get 1, loaded.registers.get 2) = (200, 201, 0) ∧
      kept.memory = m.memory := by
  intro m store load stored loaded kept
  obtain ⟨hstore, hload⟩ := standard_transfers_invert m rfl store load (by decide)
  obtain ⟨-, ⟨-, hindex⟩, hget⟩ := hstore .zero
  refine ⟨rfl, by decide, hindex, ?_, hload.2.2⟩
  rw [hget 0, hget 1, hget 2]
  decide

/-- In the indexed mode two transfers of one kind come to one of all their registers, as far as these
exist; past the last one the second one is refused and the first one stands, where the one transfer
is refused as a whole. What has been taken to memory is brought back from there. At index zero the
mode is the standard one with the two transfers exchanged, but for the index register. -/
theorem indexed_transfers_compose (m : Machine) (hmode : m.transfer = .indexed) :
    (∀ operation : Operation, operation.MovesRun → ∀ w v : Opcode,
      let first := m.execute operation w
      let second := first.machine.execute operation v
      (m.index.toNat + w.x + v.x + 2 ≤ 16 → ∀ u : Opcode, u.x.val = w.x + v.x + 1 →
        let single := m.execute operation u
        (first.result = .ok .proceed ∧ second.result = .ok .proceed ∧
          single.result = .ok .proceed) ∧
          second.machine = single.machine.pass) ∧
      (m.index.toNat + w.x + 1 ≤ 16 → 16 < m.index.toNat + w.x + v.x + 2 →
        first.result = .ok .proceed ∧
          second.result = .error (.windowOverrun (m.index + UInt16.ofNat (w.x + 1)) (v.x + 1)) ∧
          second.machine = first.machine ∧
          ∀ u : Opcode, u.x.val = w.x + v.x + 1 →
            (m.execute operation u).result = .error (.windowOverrun m.index (w.x + v.x + 2)) ∧
              (m.execute operation u).machine = m)) ∧
    (∀ w v : Opcode, v.x = w.x → m.index.toNat + w.x + 1 ≤ 16 → ∀ registers : RegisterFile,
      let loaded := m.execute .loadRun w
      let refilled := { loaded.machine with registers, index := m.index }
      let stored := refilled.execute .storeRun v
      (loaded.result = .ok .proceed ∧ stored.result = .ok .proceed) ∧
        ∀ r, stored.machine.registers.get r =
          if m.index.toNat ≤ r.val ∧ r.val ≤ m.index.toNat + w.x then m.registers.get r
          else registers.get r) ∧
    (m.index = 0 → ∀ w v : Opcode, v.x = w.x →
      let standard := m.setTransfer .standard
      let moved (after : Machine) : Machine :=
        { after with index := UInt16.ofNat (w.x + 1), transfer := .indexed }
      ((m.execute .loadRun w).result = .ok .proceed ∧
        (standard.execute .storeRun v).result = .ok .proceed ∧
        (m.execute .loadRun w).machine = moved (standard.execute .storeRun v).machine) ∧
      ((m.execute .storeRun w).result = .ok .proceed ∧
        (standard.execute .loadRun v).result = .ok .proceed ∧
        (m.execute .storeRun w).machine = moved (standard.execute .loadRun v).machine)) := by
  refine ⟨fun operation hrun w v => ?_, fun w v hsame hfits registers => ?_,
    fun hzero w v hsame => ?_⟩
  · intro first second
    have hfirst (hfits : m.index.toNat + w.x + 1 ≤ 16) : first.result = .ok .proceed := by
      rw [show first = _ from execute_of_indexed hrun hmode hfits]
    constructor
    · intro hfits u hu single
      have hsingle : single = _ := execute_of_indexed hrun hmode (by omega)
      obtain ⟨hsecond, hmachine⟩ := machine_execute_execute_of_indexed hrun hmode hu hfits
      exact ⟨⟨hfirst (by omega), hsecond, by rw [hsingle]⟩, hmachine⟩
    · intro hfits hlong
      obtain ⟨⟨hsecond, hmachine⟩, hwhole⟩ := execute_execute_of_overrun hrun hmode hfits hlong
      exact ⟨hfirst hfits, hsecond, hmachine, hwhole⟩
  · obtain ⟨hresults, hget⟩ := get_execute_execute_of_indexed hmode hfits hsame registers
    refine ⟨hresults, fun r => (hget r).trans ?_⟩
    simp only [← Nat.add_assoc, Nat.lt_succ_iff]
  · intro standard moved
    obtain ⟨⟨hload, hstore⟩, hmachine⟩ :=
      execute_of_indexed_of_zero (.inr rfl) (.inl rfl) rfl hmode hzero hsame
    obtain ⟨⟨hstore', hload'⟩, hmachine'⟩ :=
      execute_of_indexed_of_zero (.inl rfl) (.inr rfl) rfl hmode hzero hsame
    exact ⟨⟨hload, hstore, hmachine⟩, hstore', hload', hmachine'⟩

/-- With the index register at `V10` two transfers of two and three registers come to one of five. One
of three registers after one of four is refused, as one of seven is. -/
theorem indexed_transfers_compose_from_ten :
    let m : Machine := { fresh .indexed (.ofSeed 0) with
      registers := ⟨Vector.ofFn fun r => UInt8.ofNat (200 + r)⟩
      index := 10 }
    let zero : Machine := { m with index := 0 }
    let word (x : Nat) : Opcode := ⟨0xF055 + 256 * UInt16.ofNat x⟩
    let load (k : Machine) (x : Nat) : Attempt Fault Status := k.execute .loadRun (word x)
    let store (k : Machine) (x : Nat) : Attempt Fault Status := k.execute .storeRun (word x)
    m.transfer = .indexed ∧
      (load (load m 1).machine 2).machine = (load m 4).machine.pass ∧
      (load (load m 3).machine 2).result = .error (.windowOverrun 14 3) ∧
      (load (load m 3).machine 2).machine = (load m 3).machine ∧
      (load m 6).result = .error (.windowOverrun 10 7) ∧ (load m 6).machine = m ∧
      (store { (load m 3).machine with registers := .zero, index := 10 } 3).machine.registers =
        ⟨#v[0, 0, 0, 0, 0, 0, 0, 0, 0, 0, 210, 211, 212, 213, 0, 0]⟩ ∧
      (load zero 3).machine =
        { ((zero.setTransfer .standard).execute .storeRun (word 3)).machine with
          index := 4
          transfer := .indexed } := by
  intro m zero word load store
  obtain ⟨hcompose, hback, -⟩ := indexed_transfers_compose m rfl
  obtain ⟨-, -, hcross⟩ := indexed_transfers_compose zero rfl
  obtain ⟨-, hmachine⟩ :=
    (hcompose .loadRun (.inr rfl) (word 1) (word 2)).1 (by decide) (word 4) (by decide)
  obtain ⟨-, hsecond, hfirst, hwhole⟩ :=
    (hcompose .loadRun (.inr rfl) (word 3) (word 2)).2 (by decide) (by decide)
  obtain ⟨hresult, hkept⟩ := hwhole (word 6) (by decide)
  obtain ⟨-, hget⟩ := hback (word 3) (word 3) rfl (by decide) .zero
  have hend : UInt16.ofNat ((word 3).x + 1) = 4 := by decide
  refine ⟨rfl, hmachine, hsecond.trans (congrArg _ (by decide)), hfirst,
    hresult.trans (congrArg _ (by decide)), hkept, ?_, ?_⟩
  · apply RegisterFile.ext_get
    intro r
    rw [hget r]
    revert r
    decide
  · rw [← hend]
    exact (hcross rfl (word 3) (word 3) rfl).1.2.2

end Machine

end Chip8
