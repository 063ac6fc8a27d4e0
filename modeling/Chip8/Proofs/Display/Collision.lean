import Chip8.Instruction.Opcode
import Chip8.Memory
import Chip8.Proofs.Display.Parity

/-!
# Collisions

A draw collides if some pixel is lit when its turn comes. The plane changes in the meantime, but the
collision can be told from the plane before the draw: a pixel that is touched collides at its first
touch if it was lit, and at its second one otherwise. So it collides just if its touches, with one more
if it was lit, are at least two (`collided_draw_iff`). Sprites that are not taller than the plane touch
no pixel twice (`cover_le_one`), and a sprite may be drawn in two parts (`draw_append`).
-/

namespace Chip8

/-! ## Strokes -/

/-- A stroke goes on as a draw from the plane that it has come to. -/
theorem Stroke.foldl_touch (stroke : Stroke) (pixels : List Pixel) :
    pixels.foldl touch stroke =
      ⟨(stroke.plane.draw pixels).plane,
        stroke.collided || (stroke.plane.draw pixels).collided⟩ := by
  induction pixels generalizing stroke with
  | nil => simp [Plane.draw]
  | cons p rest ih =>
    rw [Plane.draw, List.foldl_cons, List.foldl_cons, ih (stroke.touch p),
      ih (touch ⟨stroke.plane, false⟩ p)]
    simp only [touch, Bool.false_or, Bool.or_assoc]

namespace Plane

/-- A draw may be made in two parts; it collides if one of them does. -/
theorem draw_append (plane : Plane) (first second : List Pixel) :
    plane.draw (first ++ second) =
      ⟨((plane.draw first).plane.draw second).plane,
        (plane.draw first).collided || ((plane.draw first).plane.draw second).collided⟩ := by
  rw [draw, List.foldl_append, Stroke.foldl_touch]
  rfl

/-- A draw collides if the first pixel is lit, or if what follows does. -/
theorem collided_draw_cons (plane : Plane) (p : Pixel) (rest : List Pixel) :
    (plane.draw (p :: rest)).collided = (plane.isLit p || ((plane.toggle p).draw rest).collided) := by
  rw [draw, List.foldl_cons, Stroke.foldl_touch]
  simp only [Stroke.touch, Bool.false_or]

/-- A draw collides if it touches a lit pixel, or any pixel twice. -/
theorem collided_draw_iff (plane : Plane) (pixels : List Pixel) :
    (plane.draw pixels).collided = true ↔ ∃ p, 2 ≤ (plane.isLit p).toNat + pixels.count p := by
  induction pixels generalizing plane with
  | nil =>
    have hlow (p : Pixel) : ¬2 ≤ (plane.isLit p).toNat + 0 := by
      have := Bool.toNat_lt (plane.isLit p)
      omega
    simp only [draw, List.foldl_nil, List.count_nil, hlow, exists_false, Bool.false_eq_true]
  | cons q rest ih =>
    rw [collided_draw_cons, Bool.or_eq_true, ih]
    -- at the first pixel itself a touch takes the place of the light that it has switched over
    have hfirst : (plane.isLit q = true ∨ 2 ≤ ((plane.toggle q).isLit q).toNat + rest.count q) ↔
        2 ≤ (plane.isLit q).toNat + (q :: rest).count q := by
      rw [isLit_toggle, if_pos rfl, List.count_cons_self]
      cases plane.isLit q with
      | true =>
        simp only [Bool.toNat_true, true_or, true_iff]
        omega
      | false =>
        simp only [Bool.not_false, Bool.toNat_true, Bool.toNat_false, Bool.false_eq_true, false_or]
        omega
    have hother (p : Pixel) (hp : p ≠ q) :
        2 ≤ ((plane.toggle q).isLit p).toNat + rest.count p ↔
          2 ≤ (plane.isLit p).toNat + (q :: rest).count p := by
      rw [isLit_toggle, if_neg (Ne.symm hp), List.count_cons_of_ne (Ne.symm hp)]
    constructor
    · rintro (hlit | ⟨p, hp⟩)
      · exact ⟨q, hfirst.1 (.inl hlit)⟩
      · by_cases hpq : p = q
        · rw [hpq] at hp
          exact ⟨q, hfirst.1 (.inr hp)⟩
        · exact ⟨p, (hother p hpq).1 hp⟩
    · rintro ⟨p, hp⟩
      by_cases hpq : p = q
      · rw [hpq] at hp
        exact (hfirst.2 hp).imp_right fun h => ⟨q, h⟩
      · exact .inr ⟨p, (hother p hpq).2 hp⟩

end Plane

/-! ## Sprites -/

namespace Sprite

/-- Where a sprite lies on the plane depends on the remainder of its height only. -/
theorem pixels_congr (sprite : Sprite) (x : ℕ) {y y' : ℕ} (h : y % 32 = y' % 32) :
    sprite.pixels x y = sprite.pixels x y' := by
  induction sprite generalizing y y' with
  | nil => rfl
  | cons row below ih =>
    -- a pixel of the row is told by the remainders of its coordinates
    have hrow (column : ℕ) : Pixel.wrapped (x + column) y = Pixel.wrapped (x + column) y' := by
      rw [← Nat.cast_add]
      refine (Pixel.wrapped_natCast _ _ _).2 ?_
      have hplace := (Pixel.wrapped_natCast (x + column) y' _).1 rfl
      rwa [← h] at hplace
    rw [pixels, pixels, ih (by omega : (y + 1) % 32 = (y' + 1) % 32)]
    simp only [hrow]

/-- A sprite that is not taller than the plane puts at most one bit on each pixel. -/
theorem cover_le_one {sprite : Sprite} (h : sprite.length ≤ 32) (x y : ℕ) (p : Pixel) :
    sprite.cover x y p ≤ 1 := by
  refine Finset.card_le_one.2 ?_
  rintro ⟨r, c⟩ hbit ⟨r', c'⟩ hbit'
  simp only [Finset.mem_filter, Finset.mem_product, Finset.mem_range] at hbit hbit'
  obtain ⟨⟨hr, hc⟩, -, hx, hy⟩ := hbit
  obtain ⟨⟨hr', hc'⟩, -, hx', hy'⟩ := hbit'
  -- both bits lie on the same pixel, and neither columns nor rows are far enough apart to come round
  have hcolumn : c = c' := by omega
  have hrow : r = r' := by omega
  rw [hrow, hcolumn]

end Sprite

namespace Display

/-- A draw collides if some pixel meets two of these: its own light, and the set bits that land on it.
-/
theorem collided_draw_iff (display : Display) (sprite : Sprite) (x y : UInt8) :
    (display.draw sprite x y).1 = true ↔
      ∃ p, 2 ≤ (display.plane.isLit p).toNat + sprite.cover x.toNat y.toNat p := by
  simp only [draw, Plane.collided_draw_iff, Sprite.count_pixels]

/-- The light of a pixel and the set bits that land on it make two if the bits alone do, or if a single
bit lands on light. -/
theorem two_le_light_add_iff (lit : Bool) (count : ℕ) :
    2 ≤ lit.toNat + count ↔ 2 ≤ count ∨ count = 1 ∧ lit = true := by
  cases lit with
  | true =>
    simp only [Bool.toNat_true, and_true]
    omega
  | false => simp only [Bool.toNat_false, Nat.zero_add, Bool.false_eq_true, and_false, or_false]

section Low

variable (display : Display) {sprite : Sprite} (hheight : sprite.length ≤ 32) (x y : UInt8)
include hheight

/-- A sprite that is not taller than the plane collides if it covers a lit pixel. -/
theorem collided_draw_iff_of_length_le :
    (display.draw sprite x y).1 = true ↔
      ∃ p, 0 < sprite.cover x.toNat y.toNat p ∧ display.plane.isLit p = true := by
  rw [collided_draw_iff]
  refine exists_congr fun p => ?_
  have hcover := Sprite.cover_le_one hheight x.toNat y.toNat p
  rw [two_le_light_add_iff]
  constructor
  · rintro (htwice | ⟨honce, hlit⟩)
    · omega
    · exact ⟨by omega, hlit⟩
  · rintro ⟨hcovered, hlit⟩
    exact .inr ⟨by omega, hlit⟩

/-- A sprite that is not taller than the plane inverts the pixels that it covers. -/
theorem isLit_draw_of_length_le (p : Pixel) :
    (display.draw sprite x y).2.plane.isLit p =
      if 0 < sprite.cover x.toNat y.toNat p then !display.plane.isLit p
      else display.plane.isLit p := by
  have hcover := Sprite.cover_le_one hheight x.toNat y.toNat p
  have hlit := display.toNat_isLit_draw sprite x y p
  rw [Bool.eq_iff_iff, ← Bool.toNat_eq_one, hlit]
  by_cases hcovered : 0 < sprite.cover x.toNat y.toNat p
  · have honce : sprite.cover x.toNat y.toNat p = 1 := by omega
    rw [if_pos hcovered, honce]
    cases display.plane.isLit p <;> decide
  · have hnone : sprite.cover x.toNat y.toNat p = 0 := by omega
    rw [if_neg hcovered, hnone]
    cases display.plane.isLit p <;> decide

end Low

/-- A sprite may be drawn in two parts, the lower one as far down as the upper one is high. -/
theorem draw_append (display : Display) (upper lower : Sprite) (x y : UInt8) :
    display.draw (upper ++ lower) x y =
      ((display.draw upper x y).1 ||
          ((display.draw upper x y).2.draw lower x (y + UInt8.ofNat upper.length)).1,
        ((display.draw upper x y).2.draw lower x (y + UInt8.ofNat upper.length)).2) := by
  have hheight : (y.toNat + upper.length) % 32 = (y + UInt8.ofNat upper.length).toNat % 32 := by
    rw [UInt8.toNat_add, UInt8.toNat_ofNat']
    omega
  simp only [draw, Sprite.pixels_append, Sprite.pixels_congr lower x.toNat hheight,
    Plane.draw_append]

/-- **Collisions told by what is covered.** A draw collides just if some pixel meets two set bits of the
sprite, or meets one and was lit before the draw. Up to the height of the plane, and so for all sprites
that an opcode can name, no pixel meets two, and what counts is a lit pixel that is covered. Drawing a
sprite is drawing its upper part and then its lower part, and collides if one of the two does. -/
theorem collision_told_by_cover :
    (∀ (display : Display) (sprite : Sprite) (x y : UInt8),
      (display.draw sprite x y).1 = true ↔
        ∃ p, 2 ≤ sprite.cover x.toNat y.toNat p ∨
          sprite.cover x.toNat y.toNat p = 1 ∧ display.plane.isLit p = true) ∧
    (∀ (display : Display) (sprite : Sprite) (x y : UInt8), sprite.length ≤ 32 →
      (∀ p, sprite.cover x.toNat y.toNat p ≤ 1) ∧
      ((display.draw sprite x y).1 = true ↔
        ∃ p, 0 < sprite.cover x.toNat y.toNat p ∧ display.plane.isLit p = true)) ∧
    (∀ (memory : Memory) (address : UInt16) (w : Opcode),
      (memory.slice address w.n).length ≤ 32) ∧
    (∀ (display : Display) (upper lower : Sprite) (x y : UInt8),
      let first := display.draw upper x y
      let second := first.2.draw lower x (y + UInt8.ofNat upper.length)
      display.draw (upper ++ lower) x y = (first.1 || second.1, second.2)) := by
  refine ⟨?_, ?_, ?_, draw_append⟩
  · intro display sprite x y
    simp only [collided_draw_iff, two_le_light_add_iff]
  · intro display sprite x y hheight
    exact ⟨Sprite.cover_le_one hheight x.toNat y.toNat,
      collided_draw_iff_of_length_le display hheight x y⟩
  · intro memory address w
    rw [Memory.length_slice]
    omega

/-- In the lower right corner, a row of two bits of which the second one comes round to a lit pixel. -/
theorem collision_around_the_edge :
    let display : Display := ⟨Plane.blank.toggle ⟨0, 31⟩, false⟩
    let sprite : Sprite := [0xC0]
    sprite.length ≤ 32 ∧ sprite.cover 63 31 ⟨0, 31⟩ ≤ 1 ∧ (display.draw sprite 63 31).1 = true := by
  intro display sprite
  have hheight : sprite.length ≤ 32 := by decide
  obtain ⟨hcover, hcollides⟩ := collision_told_by_cover.2.1 display sprite 63 31 hheight
  have hcovered : 0 < sprite.cover 63 31 ⟨0, 31⟩ := by decide
  have hlit : display.plane.isLit ⟨0, 31⟩ = true := by
    rw [Plane.isLit_toggle, if_pos rfl, Plane.isLit_blank]
    rfl
  exact ⟨hheight, hcover _, hcollides.2 ⟨_, hcovered, hlit⟩⟩

end Display

end Chip8
