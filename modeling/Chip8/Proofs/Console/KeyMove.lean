import Chip8.Console.Basic
import Chip8.Proofs.Machine.Frame
import Mathlib.Data.List.Induction

/-!
# Key moves in a row

What a machine makes of several key moves. Each key is left as the last move that names it says; an
awaited key is the first one pressed, and later presses write no register.

* `isDown_deliverAll`: the keypad afterwards, by `lastOf?`.
* `registers_deliverAll`, `waiting_deliverAll`: the registers and the wait afterwards, by
  `firstPress?`.
* `deliverAll_eq`: nothing else changes.
* `logAll_eq`: what is logged, by `firstPress?`.
-/

namespace Chip8.KeyMove

/-- The code that a move comes with. -/
def code : KeyMove → UInt8
  | down code => code
  | up code => code

/-- Whether a move leaves its key down. -/
def isDown : KeyMove → Bool
  | down _ => true
  | up _ => false

/-- The code of a press. -/
def press? : KeyMove → Option UInt8
  | down code => some code
  | up _ => none

/-- The last of the moves whose code names a key, modulo 16. -/
def lastOf? (moves : List KeyMove) (key : Key) : Option KeyMove :=
  (moves.filter fun move => move.code.toNat % 16 = key.val).getLast?

/-- The code of the first press among the moves. -/
def firstPress? (moves : List KeyMove) : Option UInt8 :=
  moves.findSome? press?

/-- The first press is that of the first move, or the first one of the rest. -/
theorem firstPress?_cons (move : KeyMove) (rest : List KeyMove) :
    firstPress? (move :: rest) = move.press?.or (firstPress? rest) := by
  rw [firstPress?, List.findSome?_cons, firstPress?]
  cases move.press? <;> rfl

/-! ## One move -/

section Deliver

variable (m : Machine) (move : KeyMove)

/-- A key move moves the key of its code, and no other. -/
theorem isDown_deliver (key : Key) :
    (move.deliver m).keypad.isDown key =
      if move.code.toNat % 16 = key.val then move.isDown else m.keypad.isDown key := by
  have hset (down : Bool) : (m.keypad.set (Key.ofCode move.code) down).isDown key =
      if move.code.toNat % 16 = key.val then down else m.keypad.isDown key := by
    rw [Keypad.isDown_set]
    simp only [Key.ofCode, Fin.ext_iff]
  cases move with
  | down code =>
    rw [isDown, ← hset, deliver, Machine.press_eq]
    rfl
  | up code => exact hset false

/-- A press ends a wait; a release does not. -/
theorem waiting_deliver : (move.deliver m).waiting = (m.waiting && move.press?.isNone) := by
  cases move with
  | down code =>
    rw [deliver, Machine.press_eq, press?, Option.isNone_some, Bool.and_false]
  | up code => exact (Bool.and_true _).symm

/-- In a wait a press writes the register that waits for it. -/
theorem registers_deliver :
    (move.deliver m).registers =
      if m.waiting then
        move.press?.elim m.registers fun code => m.registers.set m.keyRegister (code % 16)
      else m.registers := by
  cases move with
  | down code =>
    rw [deliver, Machine.press_eq]
    rfl
  | up code => exact (ite_self _).symm

/-- A key move changes the keypad, the registers and the wait at most. -/
theorem deliver_eq :
    move.deliver m =
      { m with
        keypad := (move.deliver m).keypad
        registers := (move.deliver m).registers
        waiting := (move.deliver m).waiting } := by
  cases move with
  | down code =>
    rw [deliver, Machine.press_eq]
  | up code => rfl

end Deliver

/-! ## All moves -/

section DeliverAll

variable (m : Machine) (moves : List KeyMove)

/-- The first move is delivered first. -/
theorem deliverAll_cons (move : KeyMove) :
    deliverAll m (move :: moves) = deliverAll (move.deliver m) moves := rfl

/-- The last move is delivered last. -/
theorem deliverAll_concat (move : KeyMove) :
    deliverAll m (moves ++ [move]) = move.deliver (deliverAll m moves) :=
  List.foldl_append

/-- A key is as the last move that names it left it. -/
theorem isDown_deliverAll (key : Key) :
    (deliverAll m moves).keypad.isDown key =
      (lastOf? moves key).elim (m.keypad.isDown key) isDown := by
  induction moves using List.reverseRecOn with
  | nil => rfl
  | append_singleton moves move ih =>
    -- the last move decides if it names the key, and is not there for the key otherwise
    rw [deliverAll_concat, isDown_deliver, lastOf?, List.filter_append]
    by_cases h : move.code.toNat % 16 = key.val
    · rw [if_pos h, List.filter_cons_of_pos (by simpa using h), List.filter_nil,
        List.getLast?_concat]
      rfl
    · rw [if_neg h, List.filter_cons_of_neg (by simpa using h), List.filter_nil, List.append_nil]
      exact ih

/-- Any press ends a wait. -/
theorem waiting_deliverAll :
    (deliverAll m moves).waiting = (m.waiting && (firstPress? moves).isNone) := by
  induction moves generalizing m with
  | nil => exact (Bool.and_true _).symm
  | cons move rest ih =>
    rw [deliverAll_cons, ih, waiting_deliver, firstPress?_cons, Bool.and_assoc]
    cases move.press? <;> rfl

/-- The first press of a wait writes the awaiting register; no later one writes any. -/
theorem registers_deliverAll :
    (deliverAll m moves).registers =
      if m.waiting then
        (firstPress? moves).elim m.registers fun code => m.registers.set m.keyRegister (code % 16)
      else m.registers := by
  induction moves generalizing m with
  | nil => exact (ite_self _).symm
  | cons move rest ih =>
    -- the wait is for the same register all along
    have hregister : (move.deliver m).keyRegister = m.keyRegister := by
      rw [deliver_eq]
    rw [deliverAll_cons, ih, waiting_deliver, registers_deliver, hregister, firstPress?_cons]
    cases move.press? with
    | none => cases m.waiting <;> rfl
    | some code => cases m.waiting <;> rfl

/-- Key moves change nothing but the keypad, the registers and the wait. -/
theorem deliverAll_eq :
    deliverAll m moves =
      { m with
        keypad := (deliverAll m moves).keypad
        registers := (deliverAll m moves).registers
        waiting := (deliverAll m moves).waiting } := by
  induction moves using List.reverseRecOn with
  | nil => rfl
  | append_singleton moves move ih =>
    rw [deliverAll_concat, deliver_eq]
    -- the three parts named anew on both sides must stay as they are
    generalize move.deliver (deliverAll m moves) = after
    rw [ih]

/-- Of the presses of a wait, the first one is logged. -/
theorem logAll_eq :
    logAll m moves =
      if m.waiting then
        (firstPress? moves).toList.map fun code => .keyDelivered (Key.ofCode code) m.keyRegister
      else [] := by
  induction moves generalizing m with
  | nil => exact (ite_self _).symm
  | cons move rest ih =>
    have hregister : (move.deliver m).keyRegister = m.keyRegister := by
      rw [deliver_eq]
    rw [logAll, ih, waiting_deliver, hregister, firstPress?_cons]
    cases move with
    | down code => cases hwait : m.waiting <;> simp [log, Machine.pressLog, hwait, press?]
    | up code => simp [log, press?]

end DeliverAll

end Chip8.KeyMove
