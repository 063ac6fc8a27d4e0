import Chip8.Proofs.Display.Collision
import Mathlib.Data.Prod.Lex

/-!
# The lit pixels, listed and counted

The list of lit pixels runs through the plane row by row, so that it is ordered, has no pixel twice and
tells the plane. Its length is the number of lit pixels: to toggle a dark one makes it one more, to
toggle a lit one makes it one less. A sprite of so many bits would add as many pixels if it only met dark
ones; each lit one that it switches off on the way takes two off that (`length_lit_toggleAll`), and such
a one is what a collision is (`collided_draw_iff_losses`).
-/

namespace Chip8

open Finset

/-! ## The list -/

/-- All pixels, in the order of rows and in the order of columns in each row. -/
theorem Pixel.pairwise_all : all.Pairwise fun p q => toLex (p.y, p.x) < toLex (q.y, q.x) := by
  rw [all, List.pairwise_flatMap]
  constructor
  · intro y _
    rw [List.pairwise_map]
    refine (List.pairwise_lt_finRange 64).imp fun hx => ?_
    exact Prod.Lex.toLex_lt_toLex.2 (.inr ⟨rfl, hx⟩)
  · refine (List.pairwise_lt_finRange 32).imp fun hy p hp q hq => ?_
    obtain ⟨x, -, rfl⟩ := List.mem_map.1 hp
    obtain ⟨x', -, rfl⟩ := List.mem_map.1 hq
    exact Prod.Lex.toLex_lt_toLex.2 (.inl hy)

/-- A pixel that came twice would come before itself. -/
theorem Pixel.nodup_all : all.Nodup := by
  refine pairwise_all.imp fun hlt => ?_
  rintro rfl
  exact lt_irrefl _ hlt

namespace Plane

/-- The lit pixels are in the order of all pixels. -/
theorem pairwise_lit (plane : Plane) :
    plane.lit.Pairwise fun p q => toLex (p.y, p.x) < toLex (q.y, q.x) :=
  Pixel.pairwise_all.filter _

/-- No lit pixel is listed twice. -/
theorem nodup_lit (plane : Plane) : plane.lit.Nodup :=
  Pixel.nodup_all.filter _

/-- Planes with the same list have the same pixels lit. -/
theorem lit_injective : Function.Injective lit := by
  intro a b hlit
  refine ext_isLit fun p => ?_
  rw [Bool.eq_iff_iff, ← mem_lit, ← mem_lit, hlit]

/-! ## Toggling -/

/-- One of the pixels is counted apart from all others. -/
theorem length_lit_eq (plane : Plane) (p : Pixel) :
    plane.lit.length = (plane.isLit p).toNat + (Pixel.all.erase p).countP plane.isLit := by
  have hperm : Pixel.all.Perm (p :: Pixel.all.erase p) := List.perm_cons_erase p.mem_all
  rw [lit, ← List.countP_eq_length_filter, hperm.countP_eq, List.countP_cons, Nat.add_comm]
  cases plane.isLit p <;> rfl

/-- A pixel that is toggled counts from now on just if it did not so far. -/
theorem length_lit_toggle (plane : Plane) (p : Pixel) :
    (plane.toggle p).lit.length + 2 * (plane.isLit p).toNat = plane.lit.length + 1 := by
  -- the others are as they were, and the toggled one is not among them as no pixel is listed twice
  have hothers : (Pixel.all.erase p).countP (plane.toggle p).isLit =
      (Pixel.all.erase p).countP plane.isLit := by
    refine List.countP_congr fun q hq => ?_
    have hne : p ≠ q := by
      rintro rfl
      exact Pixel.nodup_all.not_mem_erase hq
    rw [isLit_toggle, if_neg hne]
  rw [length_lit_eq _ p, length_lit_eq plane p, hothers, isLit_toggle, if_pos rfl]
  cases plane.isLit p
  · simp only [Bool.not_false, Bool.toNat_true, Bool.toNat_false]
    omega
  · simp only [Bool.not_true, Bool.toNat_true, Bool.toNat_false]
    omega

/-- How many lit pixels are switched off when pixels are toggled one after the other. -/
def losses (plane : Plane) : List Pixel → ℕ
  | [] => 0
  | p :: rest => (plane.isLit p).toNat + (plane.toggle p).losses rest

/-- Each pixel that is toggled counts one more, but for those switched off, which count one less. -/
theorem length_lit_toggleAll (plane : Plane) (pixels : List Pixel) :
    (plane.toggleAll pixels).lit.length + 2 * plane.losses pixels =
      plane.lit.length + pixels.length := by
  induction pixels generalizing plane with
  | nil => rfl
  | cons p rest ih =>
    have hfirst := plane.length_lit_toggle p
    have hrest := ih (plane.toggle p)
    rw [toggleAll, List.foldl_cons, ← toggleAll, losses, List.length_cons]
    omega

/-- A collision is the loss of a lit pixel. -/
theorem collided_draw_iff_losses (plane : Plane) (pixels : List Pixel) :
    (plane.draw pixels).collided = true ↔ 0 < plane.losses pixels := by
  induction pixels generalizing plane with
  | nil => simp only [draw, List.foldl_nil, losses, Nat.lt_irrefl, Bool.false_eq_true]
  | cons p rest ih =>
    rw [collided_draw_cons, Bool.or_eq_true, ih, losses, ← Bool.toNat_eq_one]
    -- either the first pixel was lit, or the loss is among the rest
    have hlight := Bool.toNat_lt (plane.isLit p)
    omega

end Plane

/-! ## Sprites -/

namespace Sprite

/-- How many bits of a row are set. Column `c` of a row is the bit `0x80 >>> c`. -/
def rowWeight (row : UInt8) : ℕ :=
  #{c ∈ range 8 | row &&& 0x80 >>> UInt8.ofNat c ≠ 0}

/-- How many bits of a sprite are set. -/
def weight (sprite : Sprite) : ℕ :=
  (sprite.map rowWeight).sum

/-- A row has as many columns to toggle as bits set. -/
theorem length_columns (row : UInt8) : (columns row).length = rowWeight row := by
  rw [columns, ← List.countP_eq_length_filter, rowWeight, ← Nat.count_eq_card_filter_range, Nat.count]
  refine List.countP_congr fun c hc => ?_
  rw [testBit_iff_mask row (List.mem_range.1 hc), decide_eq_true_iff]

/-- Drawing touches as many pixels as bits are set, if a pixel counts each time that it is touched. -/
theorem length_pixels (sprite : Sprite) (x y : ℕ) : (sprite.pixels x y).length = sprite.weight := by
  induction sprite generalizing y with
  | nil => rfl
  | cons row below ih =>
    rw [pixels, List.length_append, List.length_map, length_columns, ih, weight, weight, List.map_cons,
      List.sum_cons]

/-- A full row and a row of its two ends. -/
example : weight [0xFF, 0x81] = 10 := by decide

end Sprite

namespace Display

/-- **The lit pixels, listed and counted.** The list has the lit pixels and no others, each of them once,
in the order of rows and in each row in the order of columns, so that no two planes have the same list.
A draw makes it longer by the number of set bits of the sprite at most; what is missing is an even
number, and nothing is missing just if there is no collision. -/
theorem lit_pixels_listed_and_counted :
    (∀ plane : Plane, (∀ p, p ∈ plane.lit ↔ plane.isLit p = true) ∧ plane.lit.Nodup ∧
      plane.lit.Pairwise fun p q => toLex (p.y, p.x) < toLex (q.y, q.x)) ∧
    Function.Injective Plane.lit ∧
    (∀ (display : Display) (sprite : Sprite) (x y : UInt8),
      let drawn := display.draw sprite x y
      let before := display.plane.lit.length
      let after := drawn.2.plane.lit.length
      after ≤ before + sprite.weight ∧ Even (before + sprite.weight - after) ∧
        (after = before + sprite.weight ↔ drawn.1 = false)) := by
  refine ⟨?_, Plane.lit_injective, ?_⟩
  · intro plane
    exact ⟨plane.mem_lit, plane.nodup_lit, plane.pairwise_lit⟩
  · intro display sprite x y drawn before after
    let losses := display.plane.losses (sprite.pixels x.toNat y.toNat)
    have hcount : after + 2 * losses = before + sprite.weight := by
      have htoggled := display.plane.length_lit_toggleAll (sprite.pixels x.toNat y.toNat)
      rwa [← Plane.plane_draw, Sprite.length_pixels] at htoggled
    have hcollided : drawn.1 = true ↔ 0 < losses := Plane.collided_draw_iff_losses _ _
    refine ⟨by omega, ⟨losses, by omega⟩, ?_⟩
    rw [← Bool.not_eq_true, hcollided]
    omega

end Display

end Chip8
