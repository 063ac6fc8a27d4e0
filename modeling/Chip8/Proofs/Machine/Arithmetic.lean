import Chip8.Machine.Execution
import Mathlib.Data.Int.Notation

/-!
# Arithmetic with a flag

Five operations compute a byte and a flag from `Vx` and `Vy`. Taken together the two say what the
operation would have given in arithmetic without a bound: the flag is the ninth bit of a sum, what a
difference had not to borrow, or the bit that a shift has pushed out. `Computes` states this of one
operation. The operands are those before the operation, whichever registers they are in, and the flag
is written last: with `VF` as the destination it is what remains.

* `computes_of_effect`: what is common to the five operations.
* `computes_add` to `computes_shiftLeft`: the equation of each of them, over the integers.
* `subtract_execute_add`: a difference takes back a sum, from the two equations alone.
* `flags_are_wide_arithmetic`: all of this, and the sum with the index register, which has a flag as
  well.
-/

namespace Chip8

namespace RegisterFile

/-- The value of a register as an integer. -/
def toInt (v : RegisterFile) (r : RegisterIndex) : ℤ :=
  (v.get r).toNat

/-- Registers of the same value as integers hold the same byte. -/
theorem toInt_inj {v w : RegisterFile} {r s : RegisterIndex} :
    v.toInt r = w.toInt s ↔ v.get r = w.get s := by
  rw [toInt, toInt, Int.natCast_inj, UInt8.toNat_inj]

/-- The value of a register is that of a byte. -/
theorem toInt_lt (v : RegisterFile) (r : RegisterIndex) : 0 ≤ v.toInt r ∧ v.toInt r < 256 := by
  have hbyte := (v.get r).toNat_lt
  unfold toInt
  omega

end RegisterFile

namespace Machine

/-- What an arithmetic operation leaves behind: the flag in `VF`; in the destination, unless that is
`VF` as well, a value that solves the equation together with `VF`; and the other registers as they
were. -/
structure Computes (operation : Operation) (m : Machine) (w : Opcode) (flag : ℤ)
    (Solves : ℤ → ℤ → Prop) : Prop where
  result : (m.execute operation w).result = .ok .proceed
  flag_eq : (m.execute operation w).machine.registers.toInt RegisterFile.flag = flag
  solves : w.x ≠ RegisterFile.flag →
    Solves ((m.execute operation w).machine.registers.toInt w.x)
      ((m.execute operation w).machine.registers.toInt RegisterFile.flag)
  kept : ∀ r, r ≠ w.x → r ≠ RegisterFile.flag →
    (m.execute operation w).machine.registers.get r = m.registers.get r

/-! ## The register file after a result and a flag -/

section SetResult

variable (m : Machine) (r : RegisterIndex) (value : UInt8) (flag : Bool)

/-- A flag is one or zero. -/
theorem toInt_flag_setFlag :
    (m.setFlag flag).registers.toInt RegisterFile.flag = if flag then 1 else 0 := by
  unfold setFlag setRegister RegisterFile.toInt
  rw [RegisterFile.get_set_self]
  cases flag <;> rfl

/-- To set the flag changes no other register. -/
theorem get_setFlag_of_ne {s : RegisterIndex} (h : s ≠ RegisterFile.flag) :
    (m.setFlag flag).registers.get s = m.registers.get s :=
  RegisterFile.get_set_of_ne _ h.symm _

/-- The result is in its register, if the flag has not been written over it. -/
theorem get_setResult_self (h : r ≠ RegisterFile.flag) :
    (m.setResult r value flag).registers.get r = value := by
  unfold setResult
  rw [get_setFlag_of_ne _ _ h]
  exact RegisterFile.get_set_self _ _ _

/-- A result and its flag change no third register. -/
theorem get_setResult_of_ne {s : RegisterIndex} (hr : s ≠ r) (hflag : s ≠ RegisterFile.flag) :
    (m.setResult r value flag).registers.get s = m.registers.get s := by
  unfold setResult
  rw [get_setFlag_of_ne _ _ hflag]
  exact RegisterFile.get_set_of_ne _ hr.symm _

end SetResult

/-! ## The five operations -/

section Computes

variable {m : Machine} {w : Opcode}

/-- An operation that sets a result and then a flag leaves behind what the two are worth. -/
theorem computes_of_effect {operation : Operation} {value : UInt8} {bit : Bool} {flag : ℤ}
    {Solves : ℤ → ℤ → Prop}
    (heffect : operation.effect w m = .done (m.setResult w.x value bit).pass)
    (hstatus : operation.status = .proceed) (hflag : (if bit then 1 else 0) = flag)
    (hsolves : Solves value.toNat flag) : Computes operation m w flag Solves := by
  have hmachine : (m.execute operation w).machine = (m.setResult w.x value bit).pass := by
    rw [machine_execute, heffect]
    rfl
  have hregisters : (m.execute operation w).machine.registers =
      (m.setResult w.x value bit).registers := by
    rw [hmachine]
    rfl
  -- the flag is written last, so that it stands even where it is the destination
  have hbit : (m.execute operation w).machine.registers.toInt RegisterFile.flag = flag := by
    rw [hregisters, ← hflag]
    exact toInt_flag_setFlag _ bit
  refine ⟨?_, hbit, ?_, ?_⟩
  · rw [execute_eq, heffect, hstatus]
    rfl
  · intro hx
    rw [hbit, hregisters, RegisterFile.toInt, get_setResult_self _ _ _ _ hx]
    exact hsolves
  · intro r hr hother
    rw [hregisters, get_setResult_of_ne _ _ _ _ hr hother]

/-- The carry is what the sum has above a byte. -/
theorem computes_add :
    Computes .add m w (if 255 < m.registers.toInt w.x + m.registers.toInt w.y then 1 else 0)
      fun vx vf => vx + 256 * vf = m.registers.toInt w.x + m.registers.toInt w.y := by
  have ha := (m.registers.get w.x).toNat_lt
  have hb := (m.registers.get w.y).toNat_lt
  unfold RegisterFile.toInt
  apply computes_of_effect rfl rfl
  · simp only [decide_eq_true_eq]
    split <;> split <;> omega
  · rw [UInt8.toNat_add]
    split <;> omega

/-- The flag is up unless the difference has to borrow. -/
theorem computes_subtract :
    Computes .subtract m w (if m.registers.toInt w.y ≤ m.registers.toInt w.x then 1 else 0)
      fun vx vf => vx + m.registers.toInt w.y = m.registers.toInt w.x + 256 * (1 - vf) := by
  have ha := (m.registers.get w.x).toNat_lt
  have hb := (m.registers.get w.y).toNat_lt
  unfold RegisterFile.toInt
  apply computes_of_effect rfl rfl
  · simp only [decide_eq_true_eq, UInt8.le_iff_toNat_le, Int.ofNat_le]
  · rw [UInt8.toNat_sub]
    split <;> omega

/-- The same the other way round. -/
theorem computes_subtractFrom :
    Computes .subtractFrom m w (if m.registers.toInt w.x ≤ m.registers.toInt w.y then 1 else 0)
      fun vx vf => vx + m.registers.toInt w.x = m.registers.toInt w.y + 256 * (1 - vf) := by
  have ha := (m.registers.get w.x).toNat_lt
  have hb := (m.registers.get w.y).toNat_lt
  unfold RegisterFile.toInt
  apply computes_of_effect rfl rfl
  · simp only [decide_eq_true_eq, UInt8.le_iff_toNat_le, Int.ofNat_le]
  · rw [UInt8.toNat_sub]
    split <;> omega

/-- The flag is the bit that is shifted out below. -/
theorem computes_shiftRight :
    Computes .shiftRight m w (m.registers.toInt w.x % 2)
      fun vx vf => 2 * vx + vf = m.registers.toInt w.x := by
  unfold RegisterFile.toInt
  apply computes_of_effect rfl rfl
  -- the lowest bit is the remainder by two
  · simp only [beq_iff_eq, ← UInt8.toNat_inj, UInt8.toNat_mod, UInt8.reduceToNat]
    split <;> omega
  · rw [UInt8.toNat_shiftRight, show (1 : UInt8).toNat % 8 = 1 from rfl, Nat.shiftRight_eq_div_pow]
    omega

/-- The flag is the bit that is shifted out above. -/
theorem computes_shiftLeft :
    Computes .shiftLeft m w (m.registers.toInt w.x / 128)
      fun vx vf => 256 * vf + vx = 2 * m.registers.toInt w.x := by
  have ha := (m.registers.get w.x).toNat_lt
  unfold RegisterFile.toInt
  apply computes_of_effect rfl rfl
  -- the highest bit is the quotient by 128, which is one from 128 on
  · simp only [decide_eq_true_eq, UInt8.le_iff_toNat_le, UInt8.reduceToNat]
    split <;> omega
  · rw [UInt8.toNat_shiftLeft, show (1 : UInt8).toNat % 8 = 1 from rfl, Nat.shiftLeft_eq]
    omega

end Computes

/-- Taking `Vy` off a sum with `Vy` gives back what was there before the sum, with the opposite flag:
the sum carries just when the difference has to borrow. -/
theorem subtract_execute_add (m : Machine) {w v : Opcode} (hx : v.x = w.x) (hy : v.y = w.y)
    (hne : w.x ≠ w.y) (hxflag : w.x ≠ RegisterFile.flag) (hyflag : w.y ≠ RegisterFile.flag) :
    let sum := (m.execute .add w).machine
    let back := (sum.execute .subtract v).machine
    back.registers.get w.x = m.registers.get w.x ∧
      back.registers.toInt RegisterFile.flag = 1 - sum.registers.toInt RegisterFile.flag := by
  intro sum back
  have hadd : Computes .add m w _ _ := computes_add
  have hsubtract : Computes .subtract sum v _ _ := computes_subtract
  have hsum : sum.registers.toInt w.x + 256 * sum.registers.toInt RegisterFile.flag =
      m.registers.toInt w.x + m.registers.toInt w.y := hadd.solves hxflag
  have hdifference : back.registers.toInt w.x + sum.registers.toInt w.y =
      sum.registers.toInt w.x + 256 * (1 - back.registers.toInt RegisterFile.flag) := by
    have hsolves := hsubtract.solves (hx ▸ hxflag)
    rwa [hx, hy] at hsolves
  have hkept : sum.registers.toInt w.y = m.registers.toInt w.y :=
    RegisterFile.toInt_inj.2 (hadd.kept w.y hne.symm hyflag)
  -- both values are bytes, so that the multiple of 256 between them is zero
  have hafter := back.registers.toInt_lt w.x
  have hbefore := m.registers.toInt_lt w.x
  rw [← RegisterFile.toInt_inj]
  omega

/-- **Results and flags are wide arithmetic.** After each of the five operations the flag register
holds the flag and, unless it is the destination, the destination holds the byte that completes the
equation over the integers; no other register changes. The sum with the index register wraps at
sixteen bits and flags whether it has passed the last address of memory, also if the byte added is
the flag register itself. A sum with another register is taken back by a difference. -/
theorem flags_are_wide_arithmetic :
    (∀ (m : Machine) (w : Opcode),
      let a := m.registers.toInt w.x
      let b := m.registers.toInt w.y
      Computes .add m w (if 255 < a + b then 1 else 0) (fun vx vf => vx + 256 * vf = a + b) ∧
      Computes .subtract m w (if b ≤ a then 1 else 0) (fun vx vf => vx + b = a + 256 * (1 - vf)) ∧
      Computes .subtractFrom m w (if a ≤ b then 1 else 0)
        (fun vx vf => vx + a = b + 256 * (1 - vf)) ∧
      Computes .shiftRight m w (a % 2) (fun vx vf => 2 * vx + vf = a) ∧
      Computes .shiftLeft m w (a / 128) (fun vx vf => 256 * vf + vx = 2 * a)) ∧
    (∀ (m : Machine) (w : Opcode),
      let sum := m.index.toNat + (m.registers.get w.x).toNat
      let after := (m.execute .addIndex w).machine
      (m.execute .addIndex w).result = .ok .proceed ∧
      after.index.toNat = sum % 65536 ∧
      after.registers.toInt RegisterFile.flag = (if 0xFFF < sum then 1 else 0) ∧
      ∀ r, r ≠ RegisterFile.flag → after.registers.get r = m.registers.get r) ∧
    (∀ (m : Machine) (w v : Opcode), v.x = w.x → v.y = w.y →
      w.x ≠ w.y → w.x ≠ RegisterFile.flag → w.y ≠ RegisterFile.flag →
      let sum := (m.execute .add w).machine
      let back := (sum.execute .subtract v).machine
      back.registers.get w.x = m.registers.get w.x ∧
        back.registers.toInt RegisterFile.flag = 1 - sum.registers.toInt RegisterFile.flag) := by
  refine ⟨?_, ?_, fun m w v => subtract_execute_add m⟩
  · intro m w
    exact ⟨computes_add, computes_subtract, computes_subtractFrom, computes_shiftRight,
      computes_shiftLeft⟩
  · intro m w sum after
    have hafter : after = ({ m with index := m.index + (m.registers.get w.x).toUInt16 }.setFlag
        (0xFFF < sum)).pass := by
      rw [show after = _ from machine_execute m .addIndex w]
      rfl
    have hresult : (m.execute .addIndex w).result = .ok .proceed := by
      rw [execute_eq]
      rfl
    refine ⟨hresult, ?_, ?_, ?_⟩
    · rw [hafter]
      exact UInt16.toNat_add _ _
    · rw [hafter]
      exact (toInt_flag_setFlag _ _).trans (by simp only [decide_eq_true_eq])
    · intro r hr
      rw [hafter]
      exact get_setFlag_of_ne _ _ hr

/-- 200 and 100 make 44 and a carry, which is taken back with a borrow. Where the destination is `VF`,
the carry is all that is left; and to add `VF` to the index register replaces it by a flag. -/
theorem carried_sum_taken_back :
    let m : Machine := { fresh .indexed (.ofSeed 0) with
      registers := ⟨#v[0, 200, 100, 0, 0, 0, 0, 0, 0, 0, 0, 0, 0, 0, 0, 250]⟩
      index := 0xFFFF }
    let w : Opcode := ⟨0x8124⟩
    let sum := (m.execute .add w).machine
    let back := (sum.execute .subtract ⟨0x8125⟩).machine
    let aliased := (m.execute .add ⟨0x8F24⟩).machine
    let moved := (m.execute .addIndex ⟨0xFF1E⟩).machine
    (w.x ≠ w.y ∧ w.x ≠ RegisterFile.flag ∧ w.y ≠ RegisterFile.flag) ∧
    (sum.registers.toInt w.x = 44 ∧ sum.registers.toInt RegisterFile.flag = 1) ∧
    (back.registers.get w.x = 200 ∧ back.registers.toInt RegisterFile.flag = 0) ∧
    aliased.registers.toInt RegisterFile.flag = 1 ∧
    (moved.index.toNat = 249 ∧ moved.registers.toInt RegisterFile.flag = 1) := by
  intro m w sum back aliased moved
  obtain ⟨hfive, hindex, hback⟩ := flags_are_wide_arithmetic
  have hx : m.registers.get w.x = 200 := by decide
  have hoperands : m.registers.toInt w.x + m.registers.toInt w.y = 300 := by decide
  have hdistinct : w.x ≠ w.y ∧ w.x ≠ RegisterFile.flag ∧ w.y ≠ RegisterFile.flag := by decide
  obtain ⟨hne, hxflag, hyflag⟩ := hdistinct
  have hsum : Computes .add m w _ _ := (hfive m w).1
  have hflag : sum.registers.toInt RegisterFile.flag = 1 := hsum.flag_eq.trans (by decide)
  have hbyte : sum.registers.toInt w.x + 256 * sum.registers.toInt RegisterFile.flag =
      m.registers.toInt w.x + m.registers.toInt w.y := hsum.solves hxflag
  obtain ⟨hrestored, hopposite⟩ := hback m w ⟨0x8125⟩ (by decide) (by decide) hne hxflag hyflag
  have haliased : Computes .add m ⟨0x8F24⟩ _ _ := (hfive m ⟨0x8F24⟩).1
  obtain ⟨-, hmoved, hpassed, -⟩ := hindex m ⟨0xFF1E⟩
  refine ⟨⟨hne, hxflag, hyflag⟩, ⟨by omega, hflag⟩, ⟨hrestored.trans hx, ?_⟩, ?_, ?_, ?_⟩
  · exact hopposite.trans (by rw [hflag]; rfl)
  · exact haliased.flag_eq.trans (by decide)
  · exact hmoved.trans (by decide)
  · exact hpassed.trans (by decide)

end Machine

end Chip8
