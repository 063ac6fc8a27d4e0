/-!
# The call stack

Sixteen slots for return addresses, of which the first `depth` are outstanding calls, oldest first.
A return leaves its slot as it is, so the slots above `depth` may hold addresses of calls that have
ended. `toList` is what the stack means: the outstanding return addresses and nothing else.
-/

namespace Chip8

/-- Return addresses of the outstanding calls. -/
structure CallStack where
  slots : Vector UInt16 16
  depth : Fin 17
deriving DecidableEq

namespace CallStack

/-- No outstanding call, and zero in every slot. -/
def empty : CallStack :=
  ⟨Vector.replicate 16 0, 0⟩

/-- The outstanding return addresses, oldest first. -/
def toList (s : CallStack) : List UInt16 :=
  s.slots.toList.take s.depth

/-- Adds a return address; `none` when all slots are taken. -/
def push? (s : CallStack) (address : UInt16) : Option CallStack :=
  if h : s.depth.val < 16 then
    some ⟨s.slots.set s.depth address h, ⟨s.depth.val + 1, by omega⟩⟩
  else
    none

/-- Takes the youngest return address; `none` when no call is outstanding. -/
def pop? (s : CallStack) : Option (UInt16 × CallStack) :=
  if h : s.depth.val = 0 then
    none
  else
    have below : s.depth.val - 1 < 16 := by omega
    some (s.slots[s.depth.val - 1], ⟨s.slots, ⟨s.depth.val - 1, by omega⟩⟩)

/-! ## The stack as a list -/

/-- The empty stack holds no address. -/
@[simp] theorem toList_empty : empty.toList = [] := rfl

/-- A stack holds as many addresses as it is deep. -/
@[simp] theorem length_toList (s : CallStack) : s.toList.length = s.depth := by
  simp only [toList, List.length_take, Vector.length_toList]
  omega

/-- A push fails exactly when sixteen calls are outstanding. -/
theorem push?_eq_none_iff (s : CallStack) (address : UInt16) :
    s.push? address = none ↔ s.depth.val = 16 := by
  unfold push?
  split
  · next h => simp only [reduceCtorEq, false_iff]; omega
  · next h => simp only [true_iff]; omega

/-- A push appends its address. -/
theorem toList_of_push? {s t : CallStack} {address : UInt16} (h : s.push? address = some t) :
    t.toList = s.toList ++ [address] := by
  unfold push? at h
  split at h
  · next hd =>
    cases h
    simp only [toList, Vector.toList_set]
    rw [List.take_succ_eq_append_getElem (by simpa using hd), List.getElem_set_self,
      List.take_set_of_le (Nat.le_refl _)]
  · cases h

/-- A pop fails exactly when no call is outstanding. -/
theorem pop?_eq_none_iff (s : CallStack) : s.pop? = none ↔ s.depth.val = 0 := by
  unfold pop?
  split
  · next h => simp [h]
  · next h => simp [h]

/-- A pop takes the last address off. -/
theorem toList_of_pop? {s t : CallStack} {address : UInt16} (h : s.pop? = some (address, t)) :
    s.toList = t.toList ++ [address] := by
  unfold pop? at h
  split at h
  · cases h
  · next hd =>
    cases h
    have hlt : s.depth.val - 1 < s.slots.toList.length := by simp only [Vector.length_toList]; omega
    have hsucc : s.depth.val = s.depth.val - 1 + 1 := by omega
    calc s.slots.toList.take s.depth.val
        = s.slots.toList.take (s.depth.val - 1 + 1) := congrArg (s.slots.toList.take ·) hsucc
      _ = s.slots.toList.take (s.depth.val - 1) ++ [s.slots[s.depth.val - 1]] := by
        rw [List.take_succ_eq_append_getElem hlt, Vector.getElem_toList]

/-! ## The slots -/

/-- A push fills the slot at the old depth and no other one. -/
theorem get_slots_of_push? {s t : CallStack} {address : UInt16}
    (h : s.push? address = some t) {i : Fin 16} (hi : i.val ≠ s.depth.val) :
    t.slots.get i = s.slots.get i := by
  unfold push? at h
  split at h
  · next hd =>
    cases h
    exact Vector.getElem_set_ne hd i.isLt (Ne.symm hi)
  · cases h

/-- A pop leaves all slots as they are. -/
theorem slots_of_pop? {s t : CallStack} {address : UInt16}
    (h : s.pop? = some (address, t)) : t.slots = s.slots := by
  unfold pop? at h
  split at h
  · cases h
  · cases h
    rfl

/-- A pop takes the address in the highest slot that is taken. -/
theorem getElem?_slots_of_pop? {s t : CallStack} {address : UInt16}
    (h : s.pop? = some (address, t)) :
    0 < s.depth.val ∧ s.slots[s.depth.val - 1]? = some address := by
  unfold pop? at h
  split at h
  · cases h
  · next hd =>
    cases h
    exact ⟨Nat.pos_of_ne_zero hd, Vector.getElem?_eq_getElem (by omega)⟩

end CallStack

end Chip8
