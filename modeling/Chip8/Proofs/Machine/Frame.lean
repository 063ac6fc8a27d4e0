import Chip8.Machine.Execution

/-!
# What operations leave alone

Most operations touch one or two parts of the machine. The lemmas here say which operations can
touch a part at all (`footprint_effect`). Skips only ever move the program counter
(`passNextIf_eq`), and whatever branches touches at most the call stack besides
(`exists_effect_eq_of_branches`); block transfers are told apart by whether they fit
(`transferIndexed_of_fits`), and what they can touch is said once for all of them
(`exists_effect_run_eq`). Of what comes from outside, a key press touches the most (`press_eq`).
-/

namespace Chip8

namespace Operation

/-- Whether an operation goes to an address of its own. -/
def leaps : Operation → Bool
  | jump | call | jumpOffset | ret => true
  | _ => false

/-- Whether an operation skips the next instruction on a condition. -/
def isSkip : Operation → Bool
  | skipIfByte | skipUnlessByte | skipIfSame | skipUnlessSame | skipIfKey | skipUnlessKey => true
  | _ => false

/-- Whether an operation is about where the program goes on. -/
def branches (operation : Operation) : Bool :=
  operation.leaps || operation.isSkip

end Operation

namespace Machine

/-- A skip moves the program counter by one instruction or by two, and does nothing else. -/
theorem passNextIf_eq (m : Machine) (condition : Bool) :
    m.passNextIf condition =
      { m with pc := m.pc + if condition then Opcode.size + Opcode.size else Opcode.size } := by
  cases condition with
  | false => rfl
  | true => simp only [passNextIf, pass, if_true, UInt16.add_assoc]

/-- What branches touches the call stack and the program counter only. -/
theorem exists_effect_eq_of_branches {operation : Operation} (h : operation.branches = true)
    (w : Opcode) (m : Machine) :
    ∃ calls pc, (operation.effect w m).machine = { m with calls, pc } := by
  cases operation with
  | jump | jumpOffset => exact ⟨m.calls, _, rfl⟩
  | call =>
    simp only [Operation.effect]
    cases m.calls.push? m.pass.pc with
    | none => exact ⟨m.calls, m.pc, rfl⟩
    | some calls => exact ⟨calls, _, rfl⟩
  | ret =>
    simp only [Operation.effect]
    cases m.calls.pop? with
    | none => exact ⟨m.calls, m.pc, rfl⟩
    | some top => exact ⟨top.2, top.1, rfl⟩
  | skipIfByte | skipUnlessByte | skipIfSame | skipUnlessSame | skipIfKey | skipUnlessKey =>
    simp only [Operation.effect, passNextIf_eq]
    exact ⟨m.calls, _, rfl⟩
  | _ => cases h

/-- Putting a program into memory does nothing else. The memory is left unnamed: comparing it with
the one before would unfold all its bytes. -/
theorem exists_install_eq (m : Machine) (program : Program) :
    ∃ memory, m.install program = { m with memory } :=
  ⟨_, rfl⟩

/-- A press puts its key down; in a wait it also writes the register and ends the wait. -/
theorem press_eq (m : Machine) (code : UInt8) :
    m.press code =
      { m with
        keypad := m.keypad.set (Key.ofCode code) true
        registers := if m.waiting then m.registers.set m.keyRegister (code % 16) else m.registers
        waiting := false } := by
  rw [press, Key.toByte_ofCode]
  split
  · rfl
  · next hwait => rw [← Bool.eq_false_iff.2 hwait]

/-! ## Block transfers -/

/-- A run that leaves the register file is refused. -/
theorem transferIndexed_of_overrun {m : Machine} {count : Nat}
    (move : Machine → Nat → Nat → Machine) (h : 16 < m.index.toNat + count) :
    m.transferIndexed count move = .failed (.windowOverrun m.index count) m := by
  rw [transferIndexed, if_pos h]

/-- A run within it is moved, and the index register with it. -/
theorem transferIndexed_of_fits {m : Machine} {count : Nat}
    (move : Machine → Nat → Nat → Machine) (h : ¬16 < m.index.toNat + count) :
    m.transferIndexed count move =
      .done ((move m m.index.toNat count).moveIndex count).pass := by
  rw [transferIndexed, if_neg h]

/-- A block transfer touches the registers, the memory, the index register and the program counter
only, in either direction and in either mode. -/
theorem exists_effect_run_eq {operation : Operation}
    (hrun : operation = .storeRun ∨ operation = .loadRun) (w : Opcode) (m : Machine) :
    ∃ registers memory index pc,
      (operation.effect w m).machine = { m with registers, memory, index, pc } := by
  have hbring (base count : Nat) : ∃ registers memory,
      m.bringRun base count = { m with registers, memory } := ⟨_, _, rfl⟩
  have htake (base count : Nat) : ∃ registers memory,
      m.takeRun base count = { m with registers, memory } := ⟨_, _, rfl⟩
  have hindexed (move : Machine → Nat → Nat → Machine)
      (hmove : ∀ base count, ∃ registers memory, move m base count = { m with registers, memory }) :
      ∃ registers memory index pc, (m.transferIndexed (w.x + 1) move).machine =
        { m with registers, memory, index, pc } := by
    -- refused, all four parts are as before
    by_cases hlong : 16 < m.index.toNat + (w.x + 1)
    · rw [transferIndexed_of_overrun move hlong]
      exact ⟨_, _, _, _, rfl⟩
    · obtain ⟨registers, memory, hm⟩ := hmove m.index.toNat (w.x + 1)
      rw [transferIndexed_of_fits move hlong, hm]
      exact ⟨_, _, _, _, rfl⟩
  rcases hrun with rfl | rfl
  · simp only [Operation.effect]
    split
    · exact hindexed bringRun hbring
    · obtain ⟨registers, memory, hm⟩ := htake 0 (w.x + 1)
      rw [hm]
      exact ⟨_, _, _, _, rfl⟩
  · simp only [Operation.effect]
    split
    · exact hindexed takeRun htake
    · obtain ⟨registers, memory, hm⟩ := hbring 0 (w.x + 1)
      rw [hm]
      exact ⟨_, _, _, _, rfl⟩

/-! ## What an operation can touch -/

/-- What an operation leaves alone, by the part of the machine. Registers, memory, index register and
program counter are not mentioned: most operations touch one of them. -/
structure Footprint (operation : Operation) (before after : Machine) : Prop where
  calls : operation ≠ .call → operation ≠ .ret → after.calls = before.calls
  delay : operation ≠ .setDelay → after.delay = before.delay
  sound : operation ≠ .setSound → after.sound = before.sound
  display : operation ≠ .clear → operation ≠ .draw → after.display = before.display
  waiting : operation ≠ .awaitKey → after.waiting = before.waiting
  keyRegister : operation ≠ .awaitKey → after.keyRegister = before.keyRegister
  random : operation ≠ .random → after.random = before.random
  keypad : after.keypad = before.keypad
  transfer : after.transfer = before.transfer

/-- Nothing but the parts that are not mentioned has been touched. -/
theorem Footprint.of_unmentioned (operation : Operation) (m : Machine) (registers : RegisterFile)
    (memory : Memory) (index pc : UInt16) :
    Footprint operation m { m with registers, memory, index, pc } :=
  ⟨fun _ _ => rfl, fun _ => rfl, fun _ => rfl, fun _ _ => rfl, fun _ => rfl, fun _ => rfl,
    fun _ => rfl, rfl, rfl⟩

/-- An operation keeps to its footprint, also when it is refused. -/
theorem footprint_effect (operation : Operation) (w : Opcode) (m : Machine) :
    Footprint operation m (operation.effect w m).machine := by
  cases operation with
  | skipIfByte | skipUnlessByte | skipIfSame | skipUnlessSame | skipIfKey | skipUnlessKey =>
    simp only [Operation.effect, passNextIf_eq, Attempt.done]
    exact .of_unmentioned _ m _ _ _ _
  | storeRun =>
    obtain ⟨registers, memory, index, pc, h⟩ := exists_effect_run_eq (.inl rfl) w m
    rw [h]
    exact .of_unmentioned _ m _ _ _ _
  | loadRun =>
    obtain ⟨registers, memory, index, pc, h⟩ := exists_effect_run_eq (.inr rfl) w m
    rw [h]
    exact .of_unmentioned _ m _ _ _ _
  | call =>
    cases hpush : m.calls.push? m.pass.pc with
    | none =>
      simp only [Operation.effect, hpush, Attempt.failed]
      exact .of_unmentioned _ m _ _ _ _
    | some calls =>
      constructor <;> simp [Operation.effect, Attempt.done, hpush]
  | ret =>
    cases hpop : m.calls.pop? with
    | none =>
      simp only [Operation.effect, hpop, Attempt.failed]
      exact .of_unmentioned _ m _ _ _ _
    | some top =>
      constructor <;> simp [Operation.effect, Attempt.done, hpop]
  | clear | draw | random | awaitKey | setDelay | setSound =>
    constructor <;> simp [Operation.effect, Attempt.done, pass, drawSprite, setFlag, setRegister]
  | _ => exact .of_unmentioned _ m _ _ _ _

/-- Only calls and returns touch the call stack. -/
theorem calls_effect {operation : Operation} (hcall : operation ≠ .call) (hret : operation ≠ .ret)
    (w : Opcode) (m : Machine) : (operation.effect w m).machine.calls = m.calls :=
  (footprint_effect operation w m).calls hcall hret

end Machine

end Chip8
