import Chip8.Proofs.Machine.Run

/-!
# Where the program counter goes

Every operation looks after the program counter itself. Four go to an address of their own, six skip
the next instruction on a condition (`Skips`), and the others go on to the next instruction. An
operation that is refused goes nowhere, so the law is about those that are carried out.

* `exists_effect_of_isSkip`: what the six skips have in common.
* `pc_effect_of_leaps`, `machine_execute_of_skips`, `machine_execute_of_not_skips`,
  `pc_effect_of_sequential`: where the program counter goes, by the kind of operation.
* `opposite_skips`: two skips on opposite conditions, side by side.
* `program_counter_law`: all of this together.
-/

namespace Chip8

namespace Operation

/-- Two skips whose operands agree, one on the condition that the other one is not on. -/
inductive Opposite (w v : Opcode) : Operation → Operation → Prop where
  | byte (hx : v.x = w.x) (hkk : v.kk = w.kk) : Opposite w v skipIfByte skipUnlessByte
  | register (hx : v.x = w.x) (hy : v.y = w.y) : Opposite w v skipIfSame skipUnlessSame
  | key (hx : v.x = w.x) : Opposite w v skipIfKey skipUnlessKey

end Operation

namespace Machine

/-- The condition on which an operation skips the next instruction. Those that are no skips never
do. -/
def Skips (m : Machine) (w : Opcode) : Operation → Prop
  | .skipIfByte => m.registers.get w.x = w.kk
  | .skipUnlessByte => m.registers.get w.x ≠ w.kk
  | .skipIfSame => m.registers.get w.x = m.registers.get w.y
  | .skipUnlessSame => m.registers.get w.x ≠ m.registers.get w.y
  | .skipIfKey => m.keypad.isDown (Key.ofCode (m.registers.get w.x)) = true
  | .skipUnlessKey => m.keypad.isDown (Key.ofCode (m.registers.get w.x)) = false
  | _ => False

/-! ## Skips -/

section Skips

variable {m : Machine} {w v : Opcode} {operation : Operation}

/-- Only a skip ever skips. -/
theorem isSkip_of_skips (h : m.Skips w operation) : operation.isSkip = true := by
  unfold Skips at h
  split at h
  all_goals first | rfl | exact h.elim

/-- All skips pass one instruction or two, and do nothing else. -/
theorem exists_effect_of_isSkip (h : operation.isSkip = true) :
    ∃ condition : Bool, (condition = true ↔ m.Skips w operation) ∧
      operation.effect w m = .done (m.passNextIf condition) := by
  cases operation with
  | skipIfByte => exact ⟨_, beq_iff_eq, rfl⟩
  | skipUnlessByte => exact ⟨_, bne_iff_ne, rfl⟩
  | skipIfSame => exact ⟨_, beq_iff_eq, rfl⟩
  | skipUnlessSame => exact ⟨_, bne_iff_ne, rfl⟩
  | skipIfKey => exact ⟨_, Iff.rfl, rfl⟩
  | skipUnlessKey => exact ⟨_, Iff.of_eq (Bool.not_eq_true' _), rfl⟩
  | _ => cases h

/-- Skips are never refused. -/
theorem result_execute_of_isSkip (h : operation.isSkip = true) :
    (m.execute operation w).result = .ok .proceed := by
  obtain ⟨condition, -, heffect⟩ := exists_effect_of_isSkip (m := m) (w := w) h
  have hstatus : operation.status = .proceed := by
    cases operation with
    | skipIfByte | skipUnlessByte | skipIfSame | skipUnlessSame | skipIfKey | skipUnlessKey => rfl
    | _ => cases h
  rw [execute_eq, heffect, hstatus]
  rfl

/-- Where its condition holds, a skip goes four bytes on. -/
theorem machine_execute_of_skips (h : m.Skips w operation) :
    (m.execute operation w).machine = { m with pc := m.pc + 4 } := by
  obtain ⟨condition, hcondition, heffect⟩ := exists_effect_of_isSkip (isSkip_of_skips h)
  have hfour : Opcode.size + Opcode.size = 4 := by decide
  rw [machine_execute, heffect, hcondition.2 h, passNextIf_eq, if_pos rfl, hfour]
  rfl

/-- Where it does not, a skip goes two bytes on. -/
theorem machine_execute_of_not_skips (hskip : operation.isSkip = true) (h : ¬m.Skips w operation) :
    (m.execute operation w).machine = { m with pc := m.pc + 2 } := by
  obtain ⟨condition, hcondition, heffect⟩ := exists_effect_of_isSkip (m := m) (w := w) hskip
  have hfalse : condition = false := Bool.eq_false_iff.2 (mt hcondition.1 h)
  rw [machine_execute, heffect, hfalse]
  rfl

theorem isSkip_of_opposite {a b : Operation} (h : Operation.Opposite w v a b) :
    a.isSkip = true ∧ b.isSkip = true := by
  rcases h with _ | _ | _ <;> exact ⟨rfl, rfl⟩

/-- Of two opposite skips exactly one skips. -/
theorem skips_iff_of_opposite {a b : Operation} (h : Operation.Opposite w v a b) :
    m.Skips w a ↔ ¬m.Skips v b := by
  rcases h with ⟨hx, hkk⟩ | ⟨hx, hy⟩ | hx
  · unfold Skips
    rw [hx, hkk, Classical.not_not]
  · unfold Skips
    rw [hx, hy, Classical.not_not]
  · unfold Skips
    rw [hx, Bool.not_eq_false]

/-- Two opposite skips end one instruction apart, and otherwise alike. -/
theorem opposite_skips {a b : Operation} (h : Operation.Opposite w v a b) :
    let first := (m.execute a w).machine
    let second := (m.execute b v).machine
    (m.Skips w a ∧ ¬m.Skips v b ∧ first = { second with pc := second.pc + 2 }) ∨
      (¬m.Skips w a ∧ m.Skips v b ∧ second = { first with pc := first.pc + 2 }) := by
  intro first second
  -- whichever of them skips is two bytes further on
  have hexactly := skips_iff_of_opposite (m := m) h
  have hskips := isSkip_of_opposite h
  have hfour (pc : UInt16) : pc + 4 = pc + 2 + 2 := (UInt16.add_assoc pc 2 2).symm
  by_cases ha : m.Skips w a
  · have hb := hexactly.1 ha
    refine .inl ⟨ha, hb, ?_⟩
    rw [show first = _ from machine_execute_of_skips ha,
      show second = _ from machine_execute_of_not_skips hskips.2 hb, hfour]
  · have hb : m.Skips v b := Classical.not_not.1 (mt hexactly.2 ha)
    refine .inr ⟨ha, hb, ?_⟩
    rw [show first = _ from machine_execute_of_not_skips hskips.1 ha,
      show second = _ from machine_execute_of_skips hb, hfour]

end Skips

/-! ## The other operations -/

section Effect

variable {m : Machine} {w : Opcode} {operation : Operation}

/-- The addresses that operations go to of their own: two take it from the opcode, one adds a register
to it, and a return takes it from the call stack. -/
theorem pc_effect_of_leaps (h : m.refusal? operation w = none) :
    let after := (operation.effect w m).machine
    (operation = .jump ∨ operation = .call → after.pc = w.nnn) ∧
      (operation = .jumpOffset →
        after.pc = w.nnn + (m.registers.get RegisterFile.first).toUInt16) ∧
      (operation = .ret → 0 < m.calls.depth.val ∧
        m.calls.slots[m.calls.depth.val - 1]? = some after.pc) := by
  intro after
  refine ⟨?_, ?_, ?_⟩
  · rintro (rfl | rfl)
    · rfl
    · obtain ⟨calls, hpush⟩ := exists_push?_of_unrefused h m.pass.pc
      simp only [after, Operation.effect, hpush, Attempt.done]
  · rintro rfl
    rfl
  · rintro rfl
    obtain ⟨top, hpop⟩ := exists_pop?_of_unrefused h
    simp only [after, Operation.effect, hpop, Attempt.done]
    exact CallStack.getElem?_slots_of_pop? hpop

/-- What neither goes to an address of its own nor skips goes on to the next instruction. -/
theorem pc_effect_of_sequential (hleaps : operation.leaps = false)
    (hskip : operation.isSkip = false) (h : m.refusal? operation w = none) :
    (operation.effect w m).machine.pc = m.pc + 2 := by
  cases operation with
  | jump | call | jumpOffset | ret => cases hleaps
  | skipIfByte | skipUnlessByte | skipIfSame | skipUnlessSame | skipIfKey | skipUnlessKey =>
    cases hskip
  | storeRun | loadRun =>
    -- computing with the moved machine would unfold its memory, so only its program counter is read
    cases hmode : m.transfer with
    | standard =>
      simp only [Operation.effect, hmode, Attempt.done, pass, takeRun, bringRun, Opcode.size]
    | indexed =>
      have hfits := fits_of_unrefused (by decide) hmode h
      simp only [Operation.effect, hmode]
      rw [transferIndexed_of_fits _ hfits]
      simp only [Attempt.done, pass, moveIndex, takeRun, bringRun, Opcode.size]
  | _ => rfl

end Effect

/-- **The program counter law.** After an operation that has been carried out, with the operands of
whatever opcode, the program counter is at the address that the operation goes to of its own; or four
bytes on, where the operation skips on a condition that held before; or two bytes on. Opposite skips
complement each other: one of them skips and the other does not, which is all the difference between
them. A routine of the host's machine code is passed over like an instruction that is not carried
out. -/
theorem program_counter_law :
    (∀ (m : Machine) (operation : Operation) (w : Opcode) (status : Status),
      (m.execute operation w).result = .ok status →
      let after := (m.execute operation w).machine
      (operation = .jump ∨ operation = .call → after.pc = w.nnn) ∧
      (operation = .jumpOffset →
        after.pc = w.nnn + (m.registers.get RegisterFile.first).toUInt16) ∧
      (operation = .ret → 0 < m.calls.depth.val ∧
        m.calls.slots[m.calls.depth.val - 1]? = some after.pc) ∧
      (m.Skips w operation → after.pc = m.pc + 4) ∧
      (operation.leaps = false → ¬m.Skips w operation → after.pc = m.pc + 2)) ∧
    (∀ (m : Machine) (w v : Opcode) (a b : Operation), Operation.Opposite w v a b →
      let first := m.execute a w
      let second := m.execute b v
      first.result = .ok .proceed ∧ second.result = .ok .proceed ∧
      ((m.Skips w a ∧ ¬m.Skips v b ∧
          first.machine = { second.machine with pc := second.machine.pc + 2 }) ∨
        (¬m.Skips w a ∧ m.Skips v b ∧
          second.machine = { first.machine with pc := first.machine.pc + 2 }))) ∧
    (∀ (m : Machine) (command : Command) (w : Opcode),
      command.instruction? m = some (.routine, w) →
      (m.perform command).machine = (m.perform .pass).machine) := by
  refine ⟨?_, ?_, ?_⟩
  · intro m operation w status hresult after
    have hnone := refusal?_eq_none_of_ok hresult
    have hafter : after = (operation.effect w m).machine := machine_execute m operation w
    have hskips (h : m.Skips w operation) : after.pc = m.pc + 4 := by
      rw [show after = _ from machine_execute_of_skips h]
    -- a skip whose condition fails goes on like the operations that are no skips
    have hnext (hleaps : operation.leaps = false) (h : ¬m.Skips w operation) :
        after.pc = m.pc + 2 := by
      cases hskip : operation.isSkip with
      | true => rw [show after = _ from machine_execute_of_not_skips hskip h]
      | false =>
        rw [hafter]
        exact pc_effect_of_sequential hleaps hskip hnone
    obtain ⟨hjump, hoffset, hret⟩ := pc_effect_of_leaps hnone
    rw [← hafter] at hjump hoffset hret
    exact ⟨hjump, hoffset, hret, hskips, hnext⟩
  · intro m w v a b h first second
    obtain ⟨ha, hb⟩ := isSkip_of_opposite h
    exact ⟨result_execute_of_isSkip ha, result_execute_of_isSkip hb, opposite_skips h⟩
  · intro m command w h
    rw [machine_perform_of_instruction h]
    rfl

/-- With 5 in `V1` and the key 5 held down: a skip on the byte and one on the key, each with its
opposite; a jump past the end of memory; and a call with the return from it. -/
theorem skips_and_leaps_from_start :
    let m : Machine := { fresh .indexed (.ofSeed 0) with
      registers := ⟨#v[7, 5, 0, 0, 0, 0, 0, 0, 0, 0, 0, 0, 0, 0, 0, 0]⟩
      keypad := Keypad.released.set 5 true }
    let called := (m.execute .call ⟨0x2ABC⟩).machine
    m.Skips ⟨0x3105⟩ .skipIfByte ∧ (m.execute .skipIfByte ⟨0x3105⟩).machine.pc = 0x204 ∧
    ¬m.Skips ⟨0x4105⟩ .skipUnlessByte ∧ (m.execute .skipUnlessByte ⟨0x4105⟩).machine.pc = 0x202 ∧
    Operation.Opposite ⟨0xE19E⟩ ⟨0xE1A1⟩ .skipIfKey .skipUnlessKey ∧
      (m.execute .skipIfKey ⟨0xE19E⟩).machine =
        { (m.execute .skipUnlessKey ⟨0xE1A1⟩).machine with
          pc := (m.execute .skipUnlessKey ⟨0xE1A1⟩).machine.pc + 2 } ∧
    (m.execute .jumpOffset ⟨0xBFFF⟩).machine.pc = 0x1006 ∧
    called.pc = 0xABC ∧ (called.execute .ret ⟨0x00EE⟩).machine.pc = 0x202 ∧
    (m.execute .routine ⟨0x0123⟩).machine = m.pass := by
  intro m called
  obtain ⟨hlaw, hopposite, hroutine⟩ := program_counter_law
  have hskips : m.Skips ⟨0x3105⟩ .skipIfByte := by
    show m.registers.get _ = _
    decide
  have hstays : ¬m.Skips ⟨0x4105⟩ .skipUnlessByte := by
    show ¬m.registers.get _ ≠ _
    decide
  have hdown : m.Skips ⟨0xE19E⟩ .skipIfKey := by
    show m.keypad.isDown _ = true
    decide
  have hkeys : Operation.Opposite ⟨0xE19E⟩ ⟨0xE1A1⟩ .skipIfKey .skipUnlessKey := .key (by decide)
  obtain ⟨-, -, -, hfour, -⟩ := hlaw m .skipIfByte ⟨0x3105⟩ .proceed rfl
  obtain ⟨-, -, -, -, htwo⟩ := hlaw m .skipUnlessByte ⟨0x4105⟩ .proceed rfl
  obtain ⟨-, hoffset, -⟩ := hlaw m .jumpOffset ⟨0xBFFF⟩ .proceed rfl
  obtain ⟨hcall, -⟩ := hlaw m .call ⟨0x2ABC⟩ .proceed rfl
  obtain ⟨-, -, hret, -⟩ := hlaw called .ret ⟨0x00EE⟩ .proceed rfl
  obtain ⟨-, -, ⟨-, -, happart⟩ | ⟨hup, -⟩⟩ := hopposite m _ _ _ _ hkeys
  · refine ⟨hskips, (hfour hskips).trans (by decide), hstays, (htwo rfl hstays).trans (by decide),
      hkeys, happart, (hoffset rfl).trans (by decide), (hcall (.inr rfl)).trans (by decide), ?_,
      hroutine m (.execute .routine ⟨0x0123⟩) _ rfl⟩
    have hslot := (hret rfl).2
    exact (Option.some_inj.1 hslot).symm
  · exact absurd hdown hup

end Machine

end Chip8
