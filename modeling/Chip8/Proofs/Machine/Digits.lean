import Chip8.Proofs.Machine.BlockTransfer
import Chip8.Proofs.Machine.MemoryWrites
import Mathlib.Data.List.GetD

/-!
# Decimal digits

A byte is the number that its three decimal digits spell (`foldl_decimalDigits`). An instruction
writes the digits of a register to memory. A load in the standard mode brings them from there to the
first three registers, and to the next ones what memory holds after the digits
(`get_execute_digits_loadRun`, `digits_then_load`).
-/

namespace Chip8

namespace Machine

variable {m : Machine}

/-! ## The digits of a byte -/

/-- A digit is at most nine. -/
theorem le_nine_of_mem_decimalDigits {value digit : UInt8} (h : digit ∈ decimalDigits value) :
    digit.toNat ≤ 9 := by
  have hlt := value.toNat_lt
  simp only [decimalDigits, List.mem_cons, List.not_mem_nil, or_false] at h
  rcases h with rfl | rfl | rfl
  · simp only [UInt8.toNat_div, UInt8.reduceToNat]
    omega
  · simp only [UInt8.toNat_div, UInt8.toNat_mod, UInt8.reduceToNat]
    omega
  · simp only [UInt8.toNat_mod, UInt8.reduceToNat]
    omega

/-- The digits, from the hundreds on, make up the byte. -/
theorem foldl_decimalDigits (value : UInt8) :
    (decimalDigits value).foldl (fun number digit => 10 * number + digit.toNat) 0 =
      value.toNat := by
  simp only [decimalDigits, List.foldl_cons, List.foldl_nil, UInt8.toNat_div, UInt8.toNat_mod,
    UInt8.reduceToNat]
  omega

/-! ## Digits and a load -/

/-- Digits are written, whatever the state. -/
theorem execute_digits (m : Machine) (w : Opcode) :
    m.execute .digits w =
      { result := .ok .proceed
        machine := { m with
          memory := m.memory.writeAll m.index (decimalDigits (m.registers.get w.x)) }.pass
        log := [.dispatched m.pc w .digits] } := by
  rw [execute_eq]
  rfl

/-- A register after a load in the standard mode. -/
theorem get_execute_loadRun (hmode : m.transfer = .standard) (w : Opcode) (r : RegisterIndex) :
    (m.execute .loadRun w).machine.registers.get r =
      if r ≤ w.x then m.memory.read (m.index + UInt16.ofNat r) else m.registers.get r := by
  rw [execute_of_standard (.inr rfl) hmode]
  simp only [TransferMode.move, bringRun, pass]
  split
  · next hle =>
    have hinside : r.val < (m.memory.slice m.index (w.x + 1)).length := by
      rw [Memory.length_slice]
      exact Nat.lt_succ_of_le hle
    rw [RegisterFile.get_overwrite, if_pos (Nat.zero_le _), Nat.sub_zero,
      List.getD_eq_getElem _ _ hinside, Memory.getElem_slice]
  · next hgt =>
    apply RegisterFile.get_overwrite_of_outside
    rw [Memory.length_slice]
    have := Fin.not_le.1 hgt
    omega

/-- A register after a load in the standard mode of digits that have just been written. -/
theorem get_execute_digits_loadRun (hmode : m.transfer = .standard) (w v : Opcode)
    (r : RegisterIndex) :
    ((m.execute .digits w).machine.execute .loadRun v).machine.registers.get r =
      if r ≤ v.x then
        (decimalDigits (m.registers.get w.x)).getD r
          (m.memory.bytes.get ⟨(m.index.toNat + r) % 4096, Nat.mod_lt _ (by decide)⟩)
      else m.registers.get r := by
  have hlength : (decimalDigits (m.registers.get w.x)).length ≤ 4096 := by simp [decimalDigits]
  have hmode' : (m.execute .digits w).machine.transfer = .standard := by
    simpa only [execute_digits, pass] using hmode
  rw [get_execute_loadRun hmode', execute_digits]
  simp only [pass]
  rw [Memory.read_add_writeAll _ _ hlength (by omega), Memory.read_add]

/-- Digits that have been written come back as the first registers, with the bytes after them as the
next ones. Memory has changed at most where the digits are. -/
theorem digits_then_load (m : Machine) (hmode : m.transfer = .standard) (w v : Opcode)
    (hlong : 2 ≤ v.x.val) :
    let written := m.execute .digits w
    let loaded := written.machine.execute .loadRun v
    let after (r : RegisterIndex) : UInt8 := loaded.machine.registers.get r
    (written.result = .ok .proceed ∧ loaded.result = .ok .proceed) ∧
      ((after 0).toNat ≤ 9 ∧ (after 1).toNat ≤ 9 ∧ (after 2).toNat ≤ 9) ∧
      100 * (after 0).toNat + 10 * (after 1).toNat + (after 2).toNat =
        (m.registers.get w.x).toNat ∧
      (∀ r, 3 ≤ r.val → r ≤ v.x →
        after r = m.memory.bytes.get ⟨(m.index.toNat + r) % 4096, Nat.mod_lt _ (by decide)⟩) ∧
      (∀ r, v.x < r → after r = m.registers.get r) ∧
      loaded.machine.index = m.index ∧
      ∀ i : Fin 4096, (∀ j < 3, i.val ≠ (m.index.toNat + j) % 4096) →
        loaded.machine.memory.bytes.get i = m.memory.bytes.get i := by
  intro written loaded after
  let digits := decimalDigits (m.registers.get w.x)
  have hlength : digits.length = 3 := rfl
  have hwritten : written = _ := execute_digits m w
  have hmode' : written.machine.transfer = .standard := by
    simpa only [hwritten, pass] using hmode
  have hloaded : loaded = _ := execute_of_standard (m := written.machine) (.inr rfl) hmode' v
  have hmemory : loaded.machine.memory = m.memory.writeAll m.index digits := by
    simp only [hloaded, hwritten, pass, TransferMode.move, bringRun, digits]
  have hafter (r : RegisterIndex) : after r = _ := get_execute_digits_loadRun hmode w v r
  -- the first three registers are the digits, one by one
  have hdigits : digits = [after 0, after 1, after 2] := by
    have hloads (r : RegisterIndex) (hr : r.val ≤ 2) : r ≤ v.x := Nat.le_trans hr hlong
    rw [hafter 0, if_pos (hloads 0 (by decide)), hafter 1, if_pos (hloads 1 (by decide)),
      hafter 2, if_pos (hloads 2 (by decide))]
    rfl
  have hnine (r : RegisterIndex) (h : after r ∈ digits) : (after r).toNat ≤ 9 :=
    le_nine_of_mem_decimalDigits h
  have hnumber := foldl_decimalDigits (m.registers.get w.x)
  rw [show decimalDigits (m.registers.get w.x) = _ from hdigits] at hnumber
  refine ⟨⟨by rw [hwritten], by rw [hloaded]⟩, ⟨?_, ?_, ?_⟩, ?_, fun r hnext hle => ?_,
    fun r hpast => ?_, ?_, fun i hoff => ?_⟩
  · exact hnine 0 (by simp [hdigits])
  · exact hnine 1 (by simp [hdigits])
  · exact hnine 2 (by simp [hdigits])
  · simp only [List.foldl_cons, List.foldl_nil] at hnumber
    omega
  · rw [hafter, if_pos hle]
    exact List.getD_eq_default _ _ hnext
  · rw [hafter, if_neg (Fin.not_le.2 hpast)]
  · simp only [hloaded, hwritten, pass, index_move]
  · rw [hmemory]
    exact (Memory.puts_writeAll m.memory m.index (by omega)).kept i hoff

/-- The digits of 254, in the last two cells and the first one, and the byte in the cell after. -/
theorem digits_then_load_around_the_end :
    let m : Machine := { fresh .standard (.ofSeed 0) with
      memory := ⟨Vector.replicate 4096 7⟩
      registers := ⟨Vector.replicate 16 254⟩
      index := 0xFFFE }
    let loaded := ((m.execute .digits ⟨0xF133⟩).machine.execute .loadRun ⟨0xF365⟩).machine
    let after (r : RegisterIndex) : Nat := (loaded.registers.get r).toNat
    m.transfer = .standard ∧ 2 ≤ (⟨0xF365⟩ : Opcode).x.val ∧
      100 * after 0 + 10 * after 1 + after 2 = 254 ∧ after 3 = 7 ∧ after 4 = 254 ∧
      loaded.memory.bytes.get 1 = 7 := by
  intro m loaded after
  obtain ⟨-, -, hnumber, hnext, hpast, -, hkept⟩ :=
    digits_then_load m rfl ⟨0xF133⟩ ⟨0xF365⟩ (by decide)
  have hfill (i : Fin 4096) : m.memory.bytes.get i = 7 := by simp [m, Vector.get]
  refine ⟨rfl, by decide, hnumber, ?_, ?_, ?_⟩
  · exact congrArg UInt8.toNat ((hnext 3 (by decide) (by decide)).trans (hfill _))
  · exact congrArg UInt8.toNat (hpast 4 (by decide))
  · exact (hkept 1 (by decide)).trans (hfill 1)

end Machine

end Chip8
