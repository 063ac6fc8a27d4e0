import Chip8.Proofs.Machine.BlockTransfer
import Chip8.Proofs.Memory.Ring

/-!
# Data addresses count modulo 4096

The index register is a whole word. Sprites, digits and the runs of the standard mode are at the address
in it, which memory takes modulo 4096: another address of the same cell does the same to everything, and
stays where it is (`execute_atIndex`). Two things are done with the index register besides, and all its
bits count in both. The indexed mode counts registers by it, so that from sixteen on there are none
(`execute_of_overrun`); and the sum with it flags whether it is past the last address of memory
(`flag_execute_addIndex`).
-/

namespace Chip8

/-- In a transfer mode, an operation takes the index register as the address of its data and as nothing
else. -/
def Operation.Addresses (mode : TransferMode) (operation : Operation) : Prop :=
  operation = .draw ∨ operation = .digits ∨ operation.MovesRun ∧ mode = .standard

namespace Machine

/-- The machine with another index register. -/
def atIndex (m : Machine) (index : UInt16) : Machine :=
  { m with index }

theorem pass_atIndex (m : Machine) (index : UInt16) :
    (m.atIndex index).pass = m.pass.atIndex index := rfl

/-! ## Addresses of one cell -/

section Addresses

variable {m : Machine} {j : UInt16} (hlow : j.toNat % 4096 = m.index.toNat % 4096)
include hlow

/-- A sprite is drawn from the cells that the low bits name. -/
theorem drawSprite_atIndex (w : Opcode) :
    (m.atIndex j).drawSprite w = (m.drawSprite w).atIndex j := by
  simp only [drawSprite, atIndex, Memory.slice_congr hlow, setFlag, setRegister]

theorem takeRun_atIndex (base count : ℕ) :
    (m.atIndex j).takeRun base count = (m.takeRun base count).atIndex j := by
  simp only [takeRun, atIndex, Memory.writeAll_congr hlow]

theorem bringRun_atIndex (base count : ℕ) :
    (m.atIndex j).bringRun base count = (m.bringRun base count).atIndex j := by
  simp only [bringRun, atIndex, Memory.slice_congr hlow]

variable {operation : Operation} (haddresses : operation.Addresses m.transfer) (w : Opcode)
include haddresses

/-- The effect is the same with any other address of the cell, which stays where it is. -/
theorem effect_atIndex :
    operation.effect w (m.atIndex j) =
      { operation.effect w m with machine := (operation.effect w m).machine.atIndex j } := by
  have htransfer : (m.atIndex j).transfer = m.transfer := rfl
  rcases haddresses with rfl | rfl | ⟨rfl | rfl, hmode⟩
  · simp only [Operation.effect, drawSprite_atIndex hlow, pass_atIndex, Attempt.done]
  · simp only [Operation.effect, atIndex, Memory.writeAll_congr hlow, pass, Attempt.done]
  · simp only [Operation.effect, htransfer, hmode, takeRun_atIndex hlow, pass_atIndex, Attempt.done]
  · simp only [Operation.effect, htransfer, hmode, bringRun_atIndex hlow, pass_atIndex, Attempt.done]

/-- An operation does the same with any other address of the cell that the index register names. -/
theorem execute_atIndex :
    (m.atIndex j).execute operation w =
      { m.execute operation w with machine := (m.execute operation w).machine.atIndex j } := by
  rw [execute_eq, execute_eq, effect_atIndex hlow haddresses]
  rfl

end Addresses

/-- An operation that takes the index register as an address is carried out, and leaves it. -/
theorem execute_of_addresses {m : Machine} {operation : Operation}
    (haddresses : operation.Addresses m.transfer) (w : Opcode) :
    (m.execute operation w).result = .ok operation.status ∧
      (m.execute operation w).machine.index = m.index := by
  rw [execute_eq]
  rcases haddresses with rfl | rfl | ⟨rfl | rfl, hmode⟩
  · exact ⟨rfl, rfl⟩
  · exact ⟨rfl, rfl⟩
  · simp only [Operation.effect, hmode, Attempt.done, pass, takeRun, Except.map, and_self]
  · simp only [Operation.effect, hmode, Attempt.done, pass, bringRun, Except.map, and_self]

/-! ## All bits of the index register -/

/-- The sum with the index register flags whether it is past the last address of memory, before it is
cut to sixteen bits. -/
theorem flag_execute_addIndex (m : Machine) (w : Opcode) :
    (m.execute .addIndex w).machine.registers.get RegisterFile.flag =
      if 0xFFF < m.index.toNat + (m.registers.get w.x).toNat then 1 else 0 := by
  rw [machine_execute]
  simp only [Operation.effect, Attempt.done, pass, setFlag, setRegister, RegisterFile.get_set_self]
  split
  · next hpast => rw [decide_eq_true hpast]; rfl
  · next hwithin => rw [decide_eq_false hwithin]; rfl

/-- **Data addresses count modulo 4096.** Draws, digits and the transfers of the standard mode come to
the same with any index register that is equal modulo 4096: they are carried out, with the same status,
and leave machines that differ in the index register alone, which each has kept. Transfers in the indexed
mode look at the whole register: from sixteen on they are refused without a trace, whatever the low bits,
where a register with the same low bits may count registers that exist. So does the flag of the sum with
the register: two registers that are equal modulo 4096 may give two flags. -/
theorem data_addresses_are_low (m : Machine) (j : UInt16)
    (hlow : j.toNat % 4096 = m.index.toNat % 4096) (w : Opcode) :
    (∀ operation : Operation,
      operation = .draw ∨ operation = .digits ∨ operation.MovesRun ∧ m.transfer = .standard →
      let here := m.execute operation w
      let there := ({ m with index := j } : Machine).execute operation w
      (here.result = .ok operation.status ∧ there.result = .ok operation.status) ∧
        (here.machine.index = m.index ∧ there.machine.index = j) ∧
        there.machine = { here.machine with index := j }) ∧
    (∀ operation : Operation, operation.MovesRun → m.transfer = .indexed → 16 ≤ m.index.toNat →
      let here := m.execute operation w
      let there := ({ m with index := j } : Machine).execute operation w
      here.result = .error (.windowOverrun m.index (w.x + 1)) ∧ here.machine = m ∧
        (j.toNat + w.x + 1 ≤ 16 → there.result = .ok .proceed)) ∧
    (let vx := (m.registers.get w.x).toNat
     let flag (m : Machine) := (m.execute .addIndex w).machine.registers.get RegisterFile.flag
     flag m = (if 0xFFF < m.index.toNat + vx then 1 else 0) ∧
      (0x1000 ≤ m.index.toNat → j.toNat + vx ≤ 0xFFF → flag m = 1 ∧ flag { m with index := j } = 0)) := by
  refine ⟨fun operation haddresses => ?_, fun operation hrun hmode hfar => ?_, ?_⟩
  · intro here there
    have hthere : there = { here with machine := here.machine.atIndex j } :=
      execute_atIndex hlow haddresses w
    obtain ⟨hresult, hindex⟩ := execute_of_addresses haddresses w
    rw [hthere]
    exact ⟨⟨hresult, hresult⟩, ⟨hindex, rfl⟩, rfl⟩
  · intro here there
    obtain ⟨hresult, hmachine⟩ := execute_of_overrun (w := w) hrun hmode (by omega)
    refine ⟨hresult, hmachine, fun hfits => ?_⟩
    have hthere : there = _ := execute_of_indexed (m := m.atIndex j) hrun hmode hfits
    rw [hthere]
  -- here is where the upper bits show: the two sums lie on either side of the last address
  · intro vx flag
    refine ⟨flag_execute_addIndex m w, fun hfar hnear => ⟨?_, ?_⟩⟩
    · exact (flag_execute_addIndex m w).trans (if_pos (by omega))
    · exact (flag_execute_addIndex (m.atIndex j) w).trans (if_neg (Nat.not_lt.2 hnear))

/-- With the index register at 0x1002 and at 2: a draw shows the same, and so does a store in the standard
mode; in the indexed mode a store of four registers is refused with one and carried out with the other,
and the sum with seven is past the last address with one and not with the other. -/
theorem two_addresses_of_one_cell :
    let m : Machine := { fresh .indexed (.ofSeed 0) with
      registers := ⟨Vector.replicate 16 7⟩
      index := 0x1002 }
    let other : Machine := { m with index := 2 }
    let w : Opcode := ⟨0xF375⟩
    let standard := m.setTransfer .standard
    let flag (m : Machine) := (m.execute .addIndex w).machine.registers.get RegisterFile.flag
    (2 : UInt16).toNat % 4096 = m.index.toNat % 4096 ∧
      (other.execute .draw w).machine = { (m.execute .draw w).machine with index := 2 } ∧
      (({ standard with index := 2 } : Machine).execute .storeRun w).machine =
        { (standard.execute .storeRun w).machine with index := 2 } ∧
      ((m.execute .storeRun w).result = .error (.windowOverrun 0x1002 4) ∧
        (other.execute .storeRun w).result = .ok .proceed) ∧
      flag m = 1 ∧ flag other = 0 := by
  intro m other w standard flag
  have hlow : (2 : UInt16).toNat % 4096 = m.index.toNat % 4096 := by decide
  obtain ⟨haddress, hcount, -, hflag⟩ := data_addresses_are_low m 2 hlow w
  obtain ⟨haddress', -⟩ := data_addresses_are_low standard 2 hlow w
  have hdraw := (haddress .draw (.inl rfl)).2.2
  have hstore := (haddress' .storeRun (.inr (.inr ⟨.inl rfl, rfl⟩))).2.2
  obtain ⟨hresult, -, hcarried⟩ := hcount .storeRun (.inl rfl) rfl (by decide)
  have hrefused : (m.execute .storeRun w).result = .error (.windowOverrun 0x1002 4) :=
    hresult.trans (congrArg _ (by decide))
  exact ⟨hlow, hdraw, hstore, ⟨hrefused, hcarried (by decide)⟩, hflag (by decide) (by decide)⟩

end Machine

end Chip8
