import Chip8.Proofs.Machine.Alteration
import Chip8.Proofs.Machine.ProgramCounter

/-!
# When the keys move

A program sees of the keys what two skips tell it, of one key each (`LooksAt`), and what a wait brings.
So it makes no difference whether a key moves before a cycle or after it, unless the cycle looks at
that key, or begins a wait that a press would end.

* `cycle_release`, `cycle_press`: the cycle and the move of the key can be exchanged.
* `pc_cycle_ne_of_looksAt`, `machine_cycle_press_ne_of_awaitKey`: where they cannot, if the key does
  move.
* `keys_and_cycles_exchange`: all of this together.
-/

namespace Chip8

/-- To move a key down or up. -/
def Alteration.keyTo (key : Key) (down : Bool) : Alteration :=
  { keypad := fun pad => pad.set key down }

namespace Machine

/-- Whether the next cycle looks at a key: it comes to a skip on the key that `Vx` names. -/
def LooksAt (m : Machine) (key : Key) : Prop :=
  m.waiting = false ∧
    ∃ operation, DecodingTable.standard.decode? m.fetch = some operation ∧
      (operation = .skipIfKey ∨ operation = .skipUnlessKey) ∧
      Key.ofCode (m.registers.get m.fetch.x) = key

variable {m : Machine} {code : UInt8} {key : Key} {down : Bool}

theorem release_eq_alter (m : Machine) (code : UInt8) :
    m.release code = m.alter (.keyTo (Key.ofCode code) false) := rfl

/-- A press that no wait waits for does nothing but put its key down. -/
theorem press_eq_alter (hwait : m.waiting = false) (code : UInt8) :
    m.press code = m.alter (.keyTo (Key.ofCode code) true) := by
  unfold press
  rw [if_neg (Bool.eq_false_iff.1 hwait)]
  rfl

/-! ## Exchanging a cycle and a key -/

/-- Only a skip on the key itself notices that a key has moved. -/
theorem unnoticed_keyTo {operation : Operation} {w : Opcode}
    (h : operation = .skipIfKey ∨ operation = .skipUnlessKey →
      Key.ofCode (m.registers.get w.x) ≠ key) :
    (Alteration.keyTo key down).Unnoticed m w operation := by
  have hset (hother : Key.ofCode (m.registers.get w.x) ≠ key) :
      (m.keypad.set key down).isDown (Key.ofCode (m.registers.get w.x)) =
        m.keypad.isDown (Key.ofCode (m.registers.get w.x)) := by
    rw [Keypad.isDown_set, if_neg hother.symm]
  cases operation with
  | skipIfKey => exact hset (h (.inl rfl))
  | skipUnlessKey => exact hset (h (.inr rfl))
  | getDelay | setDelay | setSound | storeRun | loadRun => rfl
  | _ => trivial

/-- A cycle that does not look at a key can be done before the key moves or after it. -/
theorem cycle_alter_keyTo (h : ¬m.LooksAt key) :
    (m.alter (.keyTo key down)).cycle =
      { m.cycle with machine := m.cycle.machine.alter (.keyTo key down) } := by
  apply cycle_alter
  intro hwait operation hdecode
  apply unnoticed_keyTo
  intro hskip hkey
  exact h ⟨hwait, operation, hdecode, hskip, hkey⟩

/-- A cycle that does not look at a key can be done before the key goes up or after it. -/
theorem cycle_release (h : ¬m.LooksAt (Key.ofCode code)) :
    (m.release code).cycle = { m.cycle with machine := m.cycle.machine.release code } := by
  rw [release_eq_alter, release_eq_alter]
  exact cycle_alter_keyTo h

/-- A cycle that begins no wait leaves a machine that does not wait. -/
theorem waiting_cycle (hwait : m.waiting = false)
    (hawait : DecodingTable.standard.decode? m.fetch ≠ some .awaitKey) :
    m.cycle.machine.waiting = false := by
  cases hdecode : DecodingTable.standard.decode? m.fetch with
  | none =>
    rw [cycle_of_unknown hwait hdecode]
    exact hwait
  | some operation =>
    have hother : operation ≠ .awaitKey := by
      rintro rfl
      exact hawait hdecode
    rw [cycle_of_decode hwait hdecode, machine_execute, (footprint_effect _ _ m).waiting hother]
    exact hwait

/-- A cycle that neither looks at a key nor begins a wait can be done before the key goes down or after
it. -/
theorem cycle_press (hwait : m.waiting = false)
    (hawait : DecodingTable.standard.decode? m.fetch ≠ some .awaitKey)
    (h : ¬m.LooksAt (Key.ofCode code)) :
    (m.press code).cycle = { m.cycle with machine := m.cycle.machine.press code } := by
  rw [press_eq_alter hwait, press_eq_alter (waiting_cycle hwait hawait)]
  exact cycle_alter_keyTo h

/-! ## Where the order matters -/

/-- A skip on a key that has moved goes the other way. -/
theorem skips_alter_keyTo_iff {operation : Operation} {w : Opcode}
    (hskip : operation = .skipIfKey ∨ operation = .skipUnlessKey)
    (hkey : Key.ofCode (m.registers.get w.x) = key) (hmoves : m.keypad.isDown key = !down) :
    (m.alter (.keyTo key down)).Skips w operation ↔ ¬m.Skips w operation := by
  have hset : (m.alter (.keyTo key down)).keypad.isDown key = down := by
    show (m.keypad.set key down).isDown key = down
    rw [Keypad.isDown_set, if_pos rfl]
  have hregister : Key.ofCode ((m.alter (.keyTo key down)).registers.get w.x) = key := hkey
  unfold Skips
  rcases hskip with rfl | rfl
  · simp only [hregister, hkey, hset, hmoves]
    cases down <;> decide
  · simp only [hregister, hkey, hset, hmoves]
    cases down <;> decide

/-- A cycle that looks at a key goes on at another place once the key has moved. -/
theorem pc_cycle_ne_of_looksAt (h : m.LooksAt key) (down : Bool)
    (hmoves : m.keypad.isDown key = !down) :
    (m.alter (.keyTo key down)).cycle.machine.pc ≠ m.cycle.machine.pc := by
  obtain ⟨hwait, operation, hdecode, hskip, hkey⟩ := h
  have hisSkip : operation.isSkip = true := by
    rcases hskip with rfl | rfl <;> rfl
  have hother := skips_alter_keyTo_iff hskip hkey hmoves
  -- the two places differ also where the program counter wraps
  have hapart : m.pc + 2 ≠ m.pc + 4 := by
    intro hsame
    have hnat := congrArg UInt16.toNat hsame
    have hlt := m.pc.toNat_lt
    simp only [UInt16.toNat_add, UInt16.reduceToNat] at hnat
    omega
  have hfetch : (m.alter (.keyTo key down)).fetch = m.fetch := rfl
  rw [cycle_of_decode (m := m.alter _) hwait hdecode, cycle_of_decode hwait hdecode, hfetch]
  by_cases hskips : m.Skips m.fetch operation
  · have hnot : ¬(m.alter (.keyTo key down)).Skips m.fetch operation :=
      fun hboth => hother.1 hboth hskips
    rw [machine_execute_of_skips hskips, machine_execute_of_not_skips hisSkip hnot]
    exact hapart
  · rw [machine_execute_of_not_skips hisSkip hskips, machine_execute_of_skips (hother.2 hskips)]
    exact hapart.symm

/-- A press after a cycle that begins a wait ends the wait; before the cycle it does not. -/
theorem machine_cycle_press_ne_of_awaitKey (hwait : m.waiting = false)
    (hawait : DecodingTable.standard.decode? m.fetch = some .awaitKey) :
    (m.press code).cycle.machine ≠ m.cycle.machine.press code := by
  intro hsame
  -- the order shows in whether a key is awaited in the end
  have hbefore : (m.press code).cycle.machine.waiting = true := by
    rw [press_eq_alter hwait, cycle_of_decode (m := m.alter _) hwait hawait, machine_execute]
    rfl
  have hafter : (m.cycle.machine.press code).waiting = false := by
    rw [press_eq]
  rw [hsame, hafter] at hbefore
  cases hbefore

/-- **Keys and cycles can be exchanged.** Whether a key goes up before a cycle or after it, the cycle
comes to the same, and so does the machine, unless the cycle looks at that key; also if a key is
awaited, and if the cycle is refused. While no key is awaited the same holds of a key that goes down,
unless the cycle begins a wait. These exceptions cannot be spared: if the key was not already where it
goes, the machines differ. -/
theorem keys_and_cycles_exchange (m : Machine) (code : UInt8) :
    let key := Key.ofCode code
    (¬m.LooksAt key →
      (m.release code).cycle = { m.cycle with machine := m.cycle.machine.release code }) ∧
    (m.waiting = false → ¬m.LooksAt key →
      DecodingTable.standard.decode? m.fetch ≠ some .awaitKey →
      (m.press code).cycle = { m.cycle with machine := m.cycle.machine.press code }) ∧
    (m.LooksAt key →
      (m.keypad.isDown key = true →
        (m.release code).cycle.machine ≠ m.cycle.machine.release code) ∧
      (m.keypad.isDown key = false →
        (m.press code).cycle.machine ≠ m.cycle.machine.press code)) ∧
    (m.waiting = false → DecodingTable.standard.decode? m.fetch = some .awaitKey →
      (m.press code).cycle.machine ≠ m.cycle.machine.press code) := by
  intro key
  refine ⟨cycle_release, fun hwait h hawait => cycle_press hwait hawait h, ?_,
    machine_cycle_press_ne_of_awaitKey⟩
  intro h
  constructor
  · intro hdown hsame
    have hpc : (m.release code).cycle.machine.pc = m.cycle.machine.pc := by
      rw [hsame]
      rfl
    exact pc_cycle_ne_of_looksAt h false hdown hpc
  · intro hup hsame
    have hpc : (m.press code).cycle.machine.pc = m.cycle.machine.pc := by
      rw [hsame, press_eq]
    rw [press_eq_alter h.1] at hpc
    exact pc_cycle_ne_of_looksAt h true hup hpc

/-- At a skip on the key 5, which is down, the key 6 can go up or down before the cycle or after it, but
the key 5 cannot go up, under the code 0x15 either. At a wait no key can go down, but any can go up. -/
theorem keys_around_skip_and_wait :
    let machine (high low : UInt8) : Machine := { fresh .indexed (.ofSeed 0) with
      memory := (⟨Vector.replicate 4096 0⟩ : Memory).writeAll 0x200 [high, low]
      registers := ⟨#v[0, 5, 0, 0, 0, 0, 0, 0, 0, 0, 0, 0, 0, 0, 0, 0]⟩
      keypad := Keypad.released.set 5 true }
    let skip := machine 0xE1 0x9E
    let wait := machine 0xF3 0x0A
    (skip.waiting = false ∧ ¬skip.LooksAt 6 ∧
      DecodingTable.standard.decode? skip.fetch ≠ some .awaitKey ∧
      (skip.release 0x16).cycle.machine = skip.cycle.machine.release 0x16 ∧
      (skip.press 0x16).cycle.machine = skip.cycle.machine.press 0x16) ∧
    (skip.LooksAt 5 ∧ skip.keypad.isDown 5 = true ∧
      (skip.release 0x15).cycle.machine ≠ skip.cycle.machine.release 0x15) ∧
    (¬wait.LooksAt 5 ∧ DecodingTable.standard.decode? wait.fetch = some .awaitKey ∧
      (wait.release 0x15).cycle.machine = wait.cycle.machine.release 0x15 ∧
      (wait.press 0x15).cycle.machine ≠ wait.cycle.machine.press 0x15) := by
  intro machine skip wait
  have hskip : DecodingTable.standard.decode? skip.fetch = some .skipIfKey := by decide +kernel
  have hwait : DecodingTable.standard.decode? wait.fetch = some .awaitKey := by decide +kernel
  have hkey : Key.ofCode (skip.registers.get skip.fetch.x) = 5 := by decide +kernel
  have hsix : ¬skip.LooksAt 6 := by
    rintro ⟨-, -, -, -, hsame⟩
    rw [hkey] at hsame
    cases hsame
  have hfive : skip.LooksAt 5 := ⟨rfl, _, hskip, .inl rfl, hkey⟩
  have hnone : ¬wait.LooksAt 5 := by
    rintro ⟨-, operation, hdecode, hskips, -⟩
    rw [hwait] at hdecode
    cases hdecode
    rcases hskips with h | h <;> cases h
  have hother : DecodingTable.standard.decode? skip.fetch ≠ some .awaitKey := by
    rw [hskip]
    decide
  obtain ⟨hrelease, hpress, -⟩ := keys_and_cycles_exchange skip 0x16
  obtain ⟨-, -, hexception, -⟩ := keys_and_cycles_exchange skip 0x15
  obtain ⟨hreleased, -, -, hpressed⟩ := keys_and_cycles_exchange wait 0x15
  refine ⟨⟨rfl, hsix, hother, ?_, ?_⟩, ⟨hfive, rfl, (hexception hfive).1 rfl⟩,
    hnone, hwait, ?_, hpressed rfl hwait⟩
  · rw [hrelease hsix]
  · rw [hpress rfl hsix hother]
  · rw [hreleased hnone]

end Machine

end Chip8
