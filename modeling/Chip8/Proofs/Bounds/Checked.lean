import Mathlib.Algebra.Order.Ring.Int
import Mathlib.Data.List.Range

/-!
# Checked arithmetic and indexing

Numbers held in words of a fixed width, and arrays read and written by number, as they are before
anything is known about the numbers. Whatever does not fit in its word, and whatever lies outside its
array, gives nothing.

* `unsigned`, `signed`, `difference`, `put`, `window`: the single operations, each with the condition
  under which it gives something.
* `foldlM_put`: a loop that writes neighbouring places of an array.
-/

namespace Chip8.Checked

/-! ## Words -/

/-- A number in a word of so many bits. -/
def unsigned (bits n : Nat) : Option Nat :=
  if n < 2 ^ bits then some n else none

/-- A number below the bound of its word fits in it. -/
theorem unsigned_of_lt {bits n : ℕ} (h : n < 2 ^ bits) : unsigned bits n = some n :=
  if_pos h

/-- One number less another, neither having a sign. -/
def difference (a b : Nat) : Option Nat :=
  if b ≤ a then some (a - b) else none

/-- A difference is there if nothing is taken off below zero. -/
theorem difference_of_le {a b : ℕ} (h : b ≤ a) : difference a b = some (a - b) :=
  if_pos h

/-- The integers that fit in a word of 64 bits with a sign. -/
def IsSigned (z : Int) : Prop :=
  -2 ^ 63 ≤ z ∧ z < 2 ^ 63

instance (z : Int) : Decidable (IsSigned z) :=
  inferInstanceAs (Decidable (_ ∧ _))

/-- An integer in a word of 64 bits with a sign. -/
def signed (z : Int) : Option Int :=
  if IsSigned z then some z else none

/-- An integer in the range of its word fits in it. -/
theorem signed_of_isSigned {z : ℤ} (h : IsSigned z) : signed z = some z :=
  if_pos h

/-! ## Arrays -/

section Arrays

variable {α : Type} {n : ℕ}

/-- Writes to the place of a number. -/
def put (v : Vector α n) (i : Nat) (value : α) : Option (Vector α n) :=
  if h : i < n then some (v.set i value h) else none

/-- A place in an array can be written. -/
theorem put_of_lt (v : Vector α n) {i : ℕ} (h : i < n) (value : α) :
    put v i value = some (v.set i value h) :=
  dif_pos h

/-- The length of the part of an array from one place up to another. -/
def window (size first last : Nat) : Option Nat :=
  if first ≤ last ∧ last ≤ size then some (last - first) else none

/-- A part that lies in an array can be cut out of it. -/
theorem window_of_le {size first last : ℕ} (h : first ≤ last) (h' : last ≤ size) :
    window size first last = some (last - first) :=
  if_pos ⟨h, h'⟩

/-- A loop that writes the places from `base` on, each with a value that can be had, gives an array
with these values there. -/
theorem foldlM_put (v : Vector α n) {base count : ℕ} (h : base + count ≤ n) (value? : ℕ → Option α)
    (value : ℕ → α) (hvalue : ∀ i, base ≤ i → i < base + count → value? i = some (value i)) :
    (List.range' base count).foldlM (fun v i => do put v i (← value? i)) v =
      some (.ofFn fun i => if base ≤ i.val ∧ i.val < base + count then value i else v[i]) := by
  induction count with
  | zero =>
    have hsame : (Vector.ofFn fun i : Fin n =>
        if base ≤ i.val ∧ i.val < base + 0 then value i else v[i]) = v := by
      refine Vector.ext fun i hi => ?_
      rw [Vector.getElem_ofFn, if_neg (by omega)]
      rfl
    rw [hsame]
    rfl
  | succ count ih =>
    rw [List.range'_concat, Nat.one_mul, List.foldlM_append,
      ih (by omega) fun i hi hlt => hvalue i hi (by omega)]
    simp only [List.foldlM_cons, List.foldlM_nil, Option.bind_eq_bind, Option.bind_some,
      hvalue (base + count) (by omega) (by omega), put_of_lt _ (show base + count < n by omega),
      Option.pure_def]
    congr 1
    refine Vector.ext fun i hi => ?_
    rw [Vector.getElem_set, Vector.getElem_ofFn, Vector.getElem_ofFn]
    dsimp only
    by_cases hlast : base + count = i
    · rw [if_pos hlast, if_pos (by omega)]
      exact congrArg value hlast
    · rw [if_neg hlast]
      exact if_congr (by omega) rfl rfl

end Arrays

end Chip8.Checked
