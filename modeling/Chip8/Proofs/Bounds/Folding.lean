import Chip8.Display
import Chip8.Proofs.Bounds.Checked
import Mathlib.Algebra.Ring.Divisibility.Basic

/-!
# Folding a coordinate, turn by turn

A coordinate is folded by two loops: the first one takes off the size of the axis as long as the
coordinate is not below it, the second one adds the size as long as the coordinate is below zero.
`Loop` says how such a loop goes, in so many turns and with sums that fit in their words; it says nothing
of a loop without an end, or of one with a sum that does not fit. `lower`, `raise` and `fold?` carry the
loops out, and give nothing in these cases.

* `Loop.of_multiples`: a loop from the numbers that it passes.
* `lower_eq_some_iff`, `raise_eq_some_iff`, `fold?_eq_some_iff`: what is carried out gives a number just
  if the loops go there.
* `folds_iff`: from any coordinate in a word the two loops come to their end with the remainder, after as
  many turns as the quotient says. So `fold?` gives the remainder (`fold?_eq`).
* `folding_is_remainder`: this together with what it means for reading a pixel.
-/

namespace Chip8

namespace Checked

/-- A loop that adds an amount as long as a condition holds. It goes from one number to another in so
many turns, and each sum fits in a word with a sign. -/
inductive Loop (condition : ℤ → Prop) (amount : ℤ) : ℕ → ℤ → ℤ → Prop where
  | stop {z : ℤ} (h : ¬condition z) : Loop condition amount 0 z z
  | turn {turns : ℕ} {z last : ℤ} (h : condition z) (hfits : IsSigned (z + amount))
    (rest : Loop condition amount turns (z + amount) last) :
    Loop condition amount (turns + 1) z last

namespace Loop

variable {condition : ℤ → Prop} {amount z last : ℤ} {turns : ℕ}

/-- A loop ends where its condition fails. -/
theorem not_condition (h : Loop condition amount turns z last) : ¬condition last := by
  induction h with
  | stop hstop => exact hstop
  | turn _ _ _ ih => exact ih

/-- A loop goes to one end only, and in so many turns only. -/
theorem unique {turns' : ℕ} {last' : ℤ} (h : Loop condition amount turns z last)
    (h' : Loop condition amount turns' z last') : turns = turns' ∧ last = last' := by
  induction h generalizing turns' with
  | stop hstop =>
    cases h' with
    | stop => exact ⟨rfl, rfl⟩
    | turn hgo => exact absurd hgo hstop
  | turn hgo _ _ ih =>
    cases h' with
    | stop hstop => exact absurd hgo hstop
    | turn _ _ rest =>
      obtain ⟨rfl, rfl⟩ := ih rest
      exact ⟨rfl, rfl⟩

/-- A loop passes the multiples of its amount between the number that it starts from and its end. -/
theorem of_multiples (hstop : ¬condition last)
    (hgo : ∀ k < turns,
      condition (last - (k * amount + amount)) ∧ IsSigned (last - k * amount)) :
    Loop condition amount turns (last - turns * amount) last := by
  induction turns with
  | zero =>
    rw [Nat.cast_zero, Int.zero_mul, Int.sub_zero]
    exact stop hstop
  | succ turns ih =>
    obtain ⟨hcondition, hfits⟩ := hgo turns (Nat.lt_succ_self turns)
    have hnext : last - (turns * amount + amount) + amount = last - turns * amount := by omega
    rw [Nat.cast_succ, Int.add_mul, Int.one_mul]
    refine turn hcondition ?_ ?_
    · rwa [hnext]
    · rw [hnext]
      exact ih fun k hk => hgo k (Nat.lt_succ_of_lt hk)

end Loop

/-! ## The two loops -/

/-- Takes `size` off a coordinate until it is below `size`. Gives nothing with a size that is not
positive, with which it would go on for ever. -/
def lower (size coordinate : Int) : Option Int :=
  if coordinate < size then some coordinate
  else if 0 < size ∧ IsSigned (coordinate - size) then lower size (coordinate - size)
  else none
termination_by coordinate.toNat
decreasing_by omega

/-- Adds `size` to a coordinate until it is not below zero. Gives nothing with a size that is not
positive, with which it would go on for ever. -/
def raise (size coordinate : Int) : Option Int :=
  if 0 ≤ coordinate then some coordinate
  else if 0 < size ∧ IsSigned (coordinate + size) then raise size (coordinate + size)
  else none
termination_by (-coordinate).toNat
decreasing_by omega

section Carried

variable {size z last : ℤ} (hsize : 0 < size)
include hsize

/-- Sizes are taken off down to a number just if the first loop goes there. -/
theorem lower_eq_some_iff :
    lower size z = some last ↔ ∃ turns, Loop (size ≤ ·) (-size) turns z last := by
  constructor
  · intro h
    induction z using lower.induct size with
    | case1 z hlt =>
      rw [lower, if_pos hlt, Option.some_inj] at h
      rw [← h]
      exact ⟨0, .stop (Int.not_le.2 hlt)⟩
    | case2 z hge hnext ih =>
      rw [lower, if_neg hge, if_pos hnext] at h
      obtain ⟨turns, hrest⟩ := ih h
      exact ⟨turns + 1, .turn (Int.not_lt.1 hge) hnext.2 hrest⟩
    | case3 z hge hnext =>
      -- the sum does not fit, so that nothing is given
      rw [lower, if_neg hge, if_neg hnext] at h
      contradiction
  · rintro ⟨turns, h⟩
    induction h with
    | stop hlt => rw [lower, if_pos (Int.not_le.1 hlt)]
    | turn hge hfits _ ih =>
      rw [lower, if_neg (Int.not_lt.2 hge), if_pos ⟨hsize, hfits⟩]
      exact ih

/-- Sizes are added up to a number just if the second loop goes there. -/
theorem raise_eq_some_iff :
    raise size z = some last ↔ ∃ turns, Loop (· < 0) size turns z last := by
  constructor
  · intro h
    induction z using raise.induct size with
    | case1 z hnonneg =>
      rw [raise, if_pos hnonneg, Option.some_inj] at h
      rw [← h]
      exact ⟨0, .stop (Int.not_lt.2 hnonneg)⟩
    | case2 z hneg hnext ih =>
      rw [raise, if_neg hneg, if_pos hnext] at h
      obtain ⟨turns, hrest⟩ := ih h
      exact ⟨turns + 1, .turn (Int.not_le.1 hneg) hnext.2 hrest⟩
    | case3 z hneg hnext =>
      rw [raise, if_neg hneg, if_neg hnext] at h
      contradiction
  · rintro ⟨turns, h⟩
    induction h with
    | stop hnonneg => rw [raise, if_pos (Int.not_lt.1 hnonneg)]
    | turn hneg hfits _ ih =>
      rw [raise, if_neg (Int.not_le.2 hneg), if_pos ⟨hsize, hfits⟩]
      exact ih

end Carried

/-! ## One after the other -/

/-- The loop that takes sizes off a coordinate, and after it the one that adds them, come to an end with
so many turns in all. -/
def Folds (size : ℤ) (turns : ℕ) (coordinate last : ℤ) : Prop :=
  ∃ down below up, Loop (size ≤ ·) (-size) down coordinate below ∧
    Loop (· < 0) size up below last ∧ turns = down + up

/-- Folds a coordinate onto `0 … size - 1` by whole sizes. -/
def fold? (coordinate : Int) (size : Nat) : Option Nat := do
  let below ← lower size coordinate
  let inside ← raise size below
  return inside.toNat

/-- A coordinate is folded to a number just if the two loops go there. -/
theorem fold?_eq_some_iff {coordinate : ℤ} {size r : ℕ} (hsize : 0 < size) :
    fold? coordinate size = some r ↔ ∃ turns, Folds size turns coordinate r := by
  have hpos : (0 : ℤ) < size := by exact_mod_cast hsize
  simp only [fold?, Option.bind_eq_bind, Option.bind_eq_some_iff, Option.pure_def, Option.some_inj,
    lower_eq_some_iff hpos, raise_eq_some_iff hpos]
  constructor
  · rintro ⟨below, ⟨down, hdown⟩, inside, ⟨up, hup⟩, rfl⟩
    -- the second loop ends at or above zero, so that nothing is lost with the sign
    have hnonneg : 0 ≤ inside := Int.not_lt.1 hup.not_condition
    rw [← Int.toNat_of_nonneg hnonneg] at hup
    exact ⟨down + up, down, below, up, hdown, hup, rfl⟩
  · rintro ⟨turns, down, below, up, hdown, hup, -⟩
    exact ⟨below, ⟨down, hdown⟩, r, ⟨up, hup⟩, Int.toNat_natCast r⟩

section Folds

variable {size : ℤ} (hsize : 0 < size)
include hsize

/-- Whole numbers of sizes lie a size apart. -/
theorem add_size_le_of_lt {k turns : ℕ} (hk : k < turns) :
    0 ≤ k * size ∧ k * size + size ≤ turns * size := by
  have hnonneg : 0 ≤ size := Int.le_of_lt hsize
  have hsucc : ((k + 1 : ℕ) : ℤ) * size ≤ turns * size :=
    Int.mul_le_mul_of_nonneg_right (Int.ofNat_le.2 hk) hnonneg
  rw [Nat.cast_succ, Int.add_mul, Int.one_mul] at hsucc
  exact ⟨Int.mul_nonneg (Int.natCast_nonneg k) hnonneg, hsucc⟩

section OnAxis

variable {r : ℤ} (hr : 0 ≤ r) (hlt : r < size) {turns : ℕ}
include hr hlt

/-- From so many sizes above the axis the first loop takes as many turns. -/
theorem loop_down (h : IsSigned (r + turns * size)) :
    Loop (size ≤ ·) (-size) turns (r + turns * size) r := by
  obtain ⟨-, hhigh⟩ := h
  have hloop : Loop (size ≤ ·) (-size) turns (r - turns * -size) r := by
    refine .of_multiples (Int.not_le.2 hlt) fun k hk => ?_
    obtain ⟨hnonneg, hle⟩ := add_size_le_of_lt hsize hk
    rw [Int.mul_neg]
    exact ⟨by omega, by omega, by omega⟩
  rwa [Int.mul_neg, Int.sub_neg] at hloop

variable (hfits : size < 2 ^ 63)
include hfits

/-- From so many sizes below the axis the second loop takes as many turns. -/
theorem loop_up (h : IsSigned (r - turns * size)) :
    Loop (· < 0) size turns (r - turns * size) r := by
  obtain ⟨hlow, -⟩ := h
  refine .of_multiples (Int.not_lt.2 hr) fun k hk => ?_
  obtain ⟨hnonneg, hle⟩ := add_size_le_of_lt hsize hk
  exact ⟨by omega, by omega, by omega⟩

/-- Only one of the two loops has something to do. -/
theorem folds_of_multiple {quotient : ℤ} (h : IsSigned (r + quotient * size)) :
    Folds size quotient.natAbs (r + quotient * size) r := by
  obtain ⟨turns, rfl | rfl⟩ := quotient.eq_nat_or_neg
  · have hdown := loop_down hsize hr hlt h
    exact ⟨turns, r, 0, hdown, .stop (Int.not_lt.2 hr), Int.natAbs_natCast turns⟩
  · rw [Int.neg_mul, ← Int.sub_eq_add_neg] at h ⊢
    have hup := loop_up hsize hr hlt hfits h
    have hbelow : r - turns * size < size := by
      have hnonneg : 0 ≤ (turns : ℤ) * size :=
        Int.mul_nonneg (Int.natCast_nonneg turns) (Int.le_of_lt hsize)
      omega
    refine ⟨0, _, turns, .stop (Int.not_le.2 hbelow), hup, ?_⟩
    rw [Int.natAbs_neg, Int.natAbs_natCast, Nat.zero_add]

end OnAxis

variable (hfits : size < 2 ^ 63) {coordinate : ℤ} (h : IsSigned coordinate)
include hfits h

/-- The remainder is what the two loops come to, and the quotient is how many turns they take. -/
theorem folds_emod : Folds size (coordinate / size).natAbs coordinate (coordinate % size) := by
  have hr : 0 ≤ coordinate % size := Int.emod_nonneg _ (Int.ne_of_gt hsize)
  have hlt : coordinate % size < size := Int.emod_lt_of_pos _ hsize
  have hsum : coordinate % size + coordinate / size * size = coordinate := by
    rw [Int.mul_comm]
    exact Int.emod_add_mul_ediv coordinate size
  have hfolds := folds_of_multiple hsize hr hlt hfits (hsum.symm ▸ h)
  rwa [hsum] at hfolds

/-- The two loops go to the remainder and nowhere else. -/
theorem folds_iff {turns : ℕ} {last : ℤ} :
    Folds size turns coordinate last ↔
      turns = (coordinate / size).natAbs ∧ last = coordinate % size := by
  constructor
  · rintro ⟨down, below, up, hdown, hup, rfl⟩
    obtain ⟨down', below', up', hdown', hup', hturns⟩ := folds_emod hsize hfits h
    obtain ⟨rfl, rfl⟩ := hdown.unique hdown'
    obtain ⟨rfl, rfl⟩ := hup.unique hup'
    exact ⟨hturns.symm, rfl⟩
  · rintro ⟨rfl, rfl⟩
    exact folds_emod hsize hfits h

end Folds

/-- Folding comes to an end with the remainder, and all sums on the way fit in their words. -/
theorem fold?_eq {coordinate : ℤ} {size : ℕ} (hsize : 0 < size) (hfits : size < 2 ^ 63)
    (h : IsSigned coordinate) : fold? coordinate size = some (Coordinate.fold coordinate size) := by
  have hpos : (0 : ℤ) < size := by exact_mod_cast hsize
  have hlt : (size : ℤ) < 2 ^ 63 := by exact_mod_cast hfits
  refine (fold?_eq_some_iff hsize).2 ⟨(coordinate / size).natAbs, ?_⟩
  rw [Coordinate.natCast_fold coordinate hsize]
  exact folds_emod hpos hlt h

end Checked

namespace Coordinate

/-- A coordinate without a sign that is read as one with a sign folds to its remainder, as the size of
each axis divides the number of all words. -/
theorem fold_toInt64 (x : UInt64) {size : ℕ} (hsize : size ∣ 2 ^ 64) :
    fold x.toInt64.toInt size = x.toNat % size := by
  have hsigned : x.toInt64.toInt = (x.toNat : ℤ).bmod (2 ^ 64) := BitVec.toInt_eq_toNat_bmod _
  have hdvd : (size : ℤ) ∣ ((2 ^ 64 : ℕ) : ℤ) := Int.natCast_dvd_natCast.2 hsize
  rw [hsigned, fold, ← Int.emod_emod_of_dvd _ hdvd, Int.bmod_emod, Int.emod_emod_of_dvd _ hdvd]
  exact fold_natCast x.toNat size

end Coordinate

namespace Display

/-- Two 64-bit coordinates read the pixel of their remainders. -/
theorem litAt_eq (display : Display) (x y : UInt64) :
    display.litAt x y =
      display.plane.isLit
        ⟨⟨x.toNat % 64, Nat.mod_lt _ (by decide)⟩, ⟨y.toNat % 32, Nat.mod_lt _ (by decide)⟩⟩ := by
  have hx : Coordinate.fold x.toInt64.toInt 64 = x.toNat % 64 :=
    Coordinate.fold_toInt64 x (by decide)
  have hy : Coordinate.fold y.toInt64.toInt 32 = y.toNat % 32 :=
    Coordinate.fold_toInt64 y (by decide)
  simp only [litAt, Pixel.wrapped, hx, hy]

/-- **Folding is the remainder.** Any coordinate in a 64-bit word with a sign is folded onto an axis of
any size that fits in such a word: the loops end after as many turns as the quotient says, no sum leaves
the word, and they leave the only number on the axis that is a whole number of sizes away. The checked
loops and the unchecked fold agree with that. So two 64-bit coordinates without a sign read the pixel in
the column and the row of their remainders, also where they are read as negative, and the plane comes
round over the whole range of words, also across its end. -/
theorem folding_is_remainder :
    (∀ (coordinate : Int64) (size : ℕ), 1 ≤ size → size ≤ 2 ^ 63 - 1 →
      let r := Coordinate.fold coordinate.toInt size
      (∀ turns last, Checked.Folds size turns coordinate.toInt last ↔
        turns = (coordinate.toInt / size).natAbs ∧ last = r) ∧
      Checked.fold? coordinate.toInt size = some r ∧
      ∀ s : ℤ, s = r ↔ 0 ≤ s ∧ s < size ∧ (size : ℤ) ∣ coordinate.toInt - s) ∧
    (∀ (display : Display) (x y : UInt64),
      display.litAt x y =
        display.plane.isLit
          ⟨⟨x.toNat % 64, Nat.mod_lt _ (by decide)⟩, ⟨y.toNat % 32, Nat.mod_lt _ (by decide)⟩⟩ ∧
      ∀ i j : UInt64, display.litAt (x + 64 * i) (y + 32 * j) = display.litAt x y) := by
  refine ⟨?_, ?_⟩
  · intro coordinate size hpos hfits r
    have hr : (r : ℤ) = coordinate.toInt % size := Coordinate.natCast_fold _ hpos
    have hsigned : Checked.IsSigned coordinate.toInt := ⟨coordinate.le_toInt, coordinate.toInt_lt⟩
    have hlt : size < 2 ^ 63 := by omega
    refine ⟨fun turns last => ?_, Checked.fold?_eq hpos hlt hsigned, fun s => ?_⟩
    · rw [hr]
      exact Checked.folds_iff (by omega) (by omega) hsigned
    · have hsize : (size : ℤ) ≠ 0 := by omega
      rw [hr, eq_comm, Int.emod_eq_iff hsize, Int.natAbs_natCast, dvd_sub_comm]
  · intro display x y
    refine ⟨litAt_eq display x y, fun i j => ?_⟩
    have hx : (x + 64 * i).toNat % 64 = x.toNat % 64 := by
      simp only [UInt64.toNat_add, UInt64.toNat_mul, UInt64.reduceToNat]
      omega
    have hy : (y + 32 * j).toNat % 32 = y.toNat % 32 := by
      simp only [UInt64.toNat_add, UInt64.toNat_mul, UInt64.reduceToNat]
      omega
    simp only [litAt_eq, hx, hy]

/-- The lowest coordinate of all, and the pixel in the last column of the first row by the highest column
and the first row that is read as negative. -/
theorem extreme_coordinates_folded :
    let display : Display := ⟨Plane.blank.toggle ⟨63, 0⟩, false⟩
    (1 ≤ 7 ∧ 7 ≤ 2 ^ 63 - 1) ∧
      Checked.Folds 7 1317624576693539402 Int64.minValue.toInt 6 ∧
      Checked.fold? Int64.minValue.toInt 7 = some 6 ∧
      display.litAt 0xFFFFFFFFFFFFFFFF 0x8000000000000000 = true := by
  intro display
  have hsize : 1 ≤ 7 ∧ 7 ≤ 2 ^ 63 - 1 := by decide
  obtain ⟨hfolding, hreading⟩ := folding_is_remainder
  obtain ⟨hfolds, hchecked, -⟩ := hfolding Int64.minValue 7 hsize.1 hsize.2
  refine ⟨hsize, (hfolds _ _).2 (by decide), hchecked.trans (by decide), ?_⟩
  rw [(hreading display _ _).1]
  exact (Plane.isLit_toggle _ _ _).trans (if_pos rfl)

end Display

end Chip8
