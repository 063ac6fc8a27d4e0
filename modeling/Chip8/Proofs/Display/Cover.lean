import Chip8.Display
import Mathlib.Algebra.BigOperators.Intervals
import Mathlib.Data.Nat.Bitwise
import Mathlib.Data.Nat.Count
import Mathlib.Tactic.IntervalCases

/-!
# What a sprite covers

`Sprite.cover` counts the set bits of a sprite that land on a pixel: those in a row and a column that
the corner of the sprite moves onto the pixel, both axes being taken round the plane. It says nothing
about the order of drawing. `count_pixels` says that drawing touches each pixel that many times.
-/

namespace Chip8

open Finset

/-- Two natural numbers name a pixel by their remainders. -/
theorem Pixel.wrapped_natCast (x y : ℕ) (p : Pixel) :
    Pixel.wrapped x y = p ↔ x % 64 = p.x ∧ y % 32 = p.y := by
  cases p with | mk px py =>
  simp only [Pixel.wrapped, Pixel.mk.injEq, Fin.ext_iff, Coordinate.fold_natCast]

namespace Sprite

/-- How many set bits of a sprite with its upper left corner at `(x, y)` land on a pixel. Column `c`
of a row is the bit `0x80 >>> c`. -/
def cover (sprite : Sprite) (x y : ℕ) (p : Pixel) : ℕ :=
  #{bit ∈ range sprite.length ×ˢ range 8 |
    sprite.getD bit.1 0 &&& 0x80 >>> UInt8.ofNat bit.2 ≠ 0 ∧
      (x + bit.2) % 64 = p.x ∧ (y + bit.1) % 32 = p.y}

/-- How many set bits of a single row land on a pixel. -/
def coverRow (row : UInt8) (x y : ℕ) (p : Pixel) : ℕ :=
  #{c ∈ range 8 | row &&& 0x80 >>> UInt8.ofNat c ≠ 0 ∧ (x + c) % 64 = p.x ∧ y % 32 = p.y}

/-! ## Row by row -/

/-- The set bits of a sprite are counted row by row. -/
theorem cover_eq_sum (sprite : Sprite) (x y : ℕ) (p : Pixel) :
    sprite.cover x y p = ∑ r ∈ range sprite.length, coverRow (sprite.getD r 0) x (y + r) p := by
  simp only [cover, coverRow, card_filter, sum_product]

/-- The first row lies where the corner is, and the rest one row below. -/
theorem cover_cons (row : UInt8) (below : Sprite) (x y : ℕ) (p : Pixel) :
    cover (row :: below) x y p = coverRow row x y p + cover below x (y + 1) p := by
  rw [cover_eq_sum, cover_eq_sum, List.length_cons, sum_range_succ', add_comm]
  simp only [List.getD_cons_zero, List.getD_cons_succ, Nat.add_zero, Nat.add_assoc, Nat.add_comm 1]

/-! ## The pixels touched -/

/-- A column is drawn when its bit is set. -/
theorem testBit_iff_mask (row : UInt8) {c : ℕ} (h : c < 8) :
    row.toNat.testBit (7 - c) = true ↔ row &&& 0x80 >>> UInt8.ofNat c ≠ 0 := by
  have hmask : (0x80 >>> UInt8.ofNat c : UInt8).toNat = 2 ^ (7 - c) := by
    interval_cases c <;> rfl
  rw [Ne, ← UInt8.toNat_inj, UInt8.toNat_and, hmask, Nat.and_two_pow]
  cases row.toNat.testBit (7 - c) <;> simp

/-- Of a row, a pixel is touched as often as set bits of it land there. -/
theorem count_columns (row : UInt8) (x y : ℕ) (p : Pixel) :
    ((columns row).map fun (column : ℕ) => Pixel.wrapped (x + column) y).count p =
      coverRow row x y p := by
  rw [columns, List.count_eq_countP, List.countP_map, List.countP_filter, coverRow,
    ← Nat.count_eq_card_filter_range, Nat.count]
  refine List.countP_congr fun c hc => ?_
  rw [List.mem_range] at hc
  simp only [Function.comp_apply, Bool.and_eq_true, beq_iff_eq, decide_eq_true_eq,
    testBit_iff_mask row hc, ← Nat.cast_add, Pixel.wrapped_natCast]
  exact and_comm

/-- Drawing touches a pixel once for each set bit that lands on it. -/
theorem count_pixels (sprite : Sprite) (x y : ℕ) (p : Pixel) :
    (sprite.pixels x y).count p = sprite.cover x y p := by
  induction sprite generalizing y with
  | nil => rfl
  | cons row below ih => rw [pixels, List.count_append, count_columns, ih, cover_cons]

end Sprite

end Chip8
