import Chip8.Proofs.Display.Cover
import Mathlib.Algebra.BigOperators.Group.List.Basic
import Mathlib.Algebra.Group.Nat.Even
import Mathlib.Data.List.DropRight
import Mathlib.Data.List.Induction

/-!
# The plane as a parity

A plane that is drawn on and cleared any number of times, in any order, remembers one bit a pixel of
all that: whether the set bits that landed on the pixel since the last clear are odd in number, with
one more if the pixel was lit at the start and nothing has been cleared since.

* `toNat_isLit_toggleAll`: a pixel after a list of pixels was toggled, by how often it occurs.
* `toNat_isLit_run`: a pixel after a list of clears and draws.
* `plane_is_parity_of_draws`: that as a criterion, and what follows for reordered and repeated draws.
-/

namespace Chip8

namespace Plane

/-- Two planes with the same pixels lit, as numbers, are equal. -/
theorem ext_toNat {a b : Plane} (h : ∀ p, (a.isLit p).toNat = (b.isLit p).toNat) : a = b := by
  apply ext_isLit
  intro p
  rw [Bool.eq_iff_iff, ← Bool.toNat_eq_one, ← Bool.toNat_eq_one, h p]

/-- Toggles pixels one after the other, and looks at none of them. -/
def toggleAll (plane : Plane) (pixels : List Pixel) : Plane :=
  pixels.foldl toggle plane

/-- The plane that a draw leaves does not depend on collisions. -/
theorem plane_draw (plane : Plane) (pixels : List Pixel) :
    (plane.draw pixels).plane = plane.toggleAll pixels := by
  -- the collision seen so far varies along the stroke, and the plane does not depend on it
  suffices h : ∀ stroke : Stroke,
      (pixels.foldl Stroke.touch stroke).plane = stroke.plane.toggleAll pixels from h ⟨plane, false⟩
  induction pixels with
  | nil =>
    intro stroke
    rfl
  | cons p rest ih =>
    intro stroke
    exact ih (stroke.touch p)

/-- A pixel changes with the parity of the number of times that it is toggled. -/
theorem toNat_isLit_toggleAll (plane : Plane) (pixels : List Pixel) (p : Pixel) :
    ((plane.toggleAll pixels).isLit p).toNat = ((plane.isLit p).toNat + pixels.count p) % 2 := by
  induction pixels generalizing plane with
  | nil => cases h : plane.isLit p <;> simp only [toggleAll, List.foldl_nil, h] <;> rfl
  | cons q rest ih =>
    rw [toggleAll, List.foldl_cons, ← toggleAll, ih, isLit_toggle, List.count_cons]
    by_cases hq : q = p
    -- toggling this pixel makes up for the touch that is counted no more
    · rw [if_pos hq, if_pos (by rw [hq, beq_self_eq_true])]
      cases plane.isLit p <;> simp only [Bool.not_true, Bool.not_false, Bool.toNat_true,
        Bool.toNat_false] <;> omega
    · rw [if_neg hq, if_neg (by rwa [beq_iff_eq]), Nat.add_zero]

end Plane

namespace Display

/-! ## Clears and draws -/

/-- Something to do to a display that changes its plane. -/
inductive Command where
  /-- Switch all pixels off. -/
  | clear
  /-- Draw a sprite with its upper left corner at `(x, y)`. -/
  | draw (sprite : Sprite) (x y : UInt8)
deriving DecidableEq

/-- Does one thing to a display. -/
def perform (display : Display) : Command → Display
  | .clear => display.clear
  | .draw sprite x y => (display.draw sprite x y).2

/-- Does one thing after the other. -/
def run (display : Display) (commands : List Command) : Display :=
  commands.foldl perform display

namespace Command

/-- How many set bits a command puts on a pixel. -/
def cover (p : Pixel) : Command → ℕ
  | clear => 0
  | draw sprite x y => sprite.cover x.toNat y.toNat p

/-- The commands after the last clear; all of them if nothing was cleared. -/
def sinceClear (commands : List Command) : List Command :=
  commands.rtakeWhile fun command => command ≠ clear

/-- How many set bits a list of commands puts on a pixel after the last clear. -/
def coverSinceClear (commands : List Command) (p : Pixel) : ℕ :=
  ((sinceClear commands).map (cover p)).sum

/-- Right after a clear nothing has been drawn. -/
theorem coverSinceClear_concat_clear (commands : List Command) (p : Pixel) :
    coverSinceClear (commands ++ [clear]) p = 0 := by
  rw [coverSinceClear, sinceClear, List.rtakeWhile_concat_neg _ _ _ (by decide)]
  rfl

/-- A draw adds the set bits of its sprite. -/
theorem coverSinceClear_concat_draw (commands : List Command) (sprite : Sprite) (x y : UInt8)
    (p : Pixel) :
    coverSinceClear (commands ++ [draw sprite x y]) p =
      coverSinceClear commands p + sprite.cover x.toNat y.toNat p := by
  rw [coverSinceClear, sinceClear, List.rtakeWhile_concat_pos _ _ _ (by simp), List.map_append,
    List.sum_append]
  rfl

/-- Without a clear all commands count. -/
theorem coverSinceClear_of_not_mem {commands : List Command} (h : clear ∉ commands) (p : Pixel) :
    coverSinceClear commands p = (commands.map (cover p)).sum := by
  rw [coverSinceClear, sinceClear, List.rtakeWhile_eq_self_iff.2]
  intro command hmem
  apply decide_eq_true
  rintro rfl
  exact h hmem

end Command

/-- Whether a pixel is lit at the start and has not been cleared since, as a number. -/
def kept (display : Display) (commands : List Command) (p : Pixel) : ℕ :=
  if Command.clear ∉ commands ∧ display.plane.isLit p = true then 1 else 0

/-! ## What a run leaves -/

variable (display : Display)

/-- A run can be made in two parts. -/
theorem run_append (before after : List Command) :
    display.run (before ++ after) = (display.run before).run after :=
  List.foldl_append

/-- The last command is performed on what the others have left. -/
theorem run_concat (commands : List Command) (last : Command) :
    display.run (commands ++ [last]) = (display.run commands).perform last :=
  run_append display commands [last]

/-- A draw adds its set bits to a pixel, modulo two. -/
theorem toNat_isLit_draw (sprite : Sprite) (x y : UInt8) (p : Pixel) :
    ((display.draw sprite x y).2.plane.isLit p).toNat =
      ((display.plane.isLit p).toNat + sprite.cover x.toNat y.toNat p) % 2 := by
  rw [draw, Plane.plane_draw, Plane.toNat_isLit_toggleAll, Sprite.count_pixels]

/-- A draw is no clear. -/
theorem kept_concat_draw (commands : List Command) (sprite : Sprite) (x y : UInt8) (p : Pixel) :
    display.kept (commands ++ [.draw sprite x y]) p = display.kept commands p := by
  simp only [kept, List.mem_append, List.mem_singleton, reduceCtorEq, or_false]

/-- A pixel is lit after a run when the set bits that landed on it since the last clear are odd in
number, with one more for a pixel that was lit all along. -/
theorem toNat_isLit_run (commands : List Command) (p : Pixel) :
    ((display.run commands).plane.isLit p).toNat =
      (display.kept commands p + Command.coverSinceClear commands p) % 2 := by
  -- from the right, as what a last clear leaves does not depend on what came before it
  induction commands using List.reverseRecOn with
  | nil =>
    rw [Command.coverSinceClear_of_not_mem List.not_mem_nil, kept]
    cases h : display.plane.isLit p <;> simp [run, h]
  | append_singleton commands last ih =>
    rw [run_concat]
    cases last with
    | clear =>
      rw [Command.coverSinceClear_concat_clear, kept, if_neg (by simp)]
      simp only [perform, clear, Plane.isLit_blank, Bool.toNat_false]
    | draw sprite x y =>
      rw [perform, toNat_isLit_draw, ih, Command.coverSinceClear_concat_draw, kept_concat_draw,
        Nat.mod_add_mod, Nat.add_assoc]

/-- Two displays with the same pixels lit have them so after the same draws in any order. -/
theorem plane_run_perm {draws draws' : List Command} (hdraws : Command.clear ∉ draws)
    (hperm : draws.Perm draws') : (display.run draws).plane = (display.run draws').plane := by
  have hdraws' : Command.clear ∉ draws' := by
    intro hmem
    exact hdraws (hperm.mem_iff.2 hmem)
  apply Plane.ext_toNat
  intro p
  rw [toNat_isLit_run, toNat_isLit_run, Command.coverSinceClear_of_not_mem hdraws,
    Command.coverSinceClear_of_not_mem hdraws', (hperm.map (Command.cover p)).sum_eq]
  simp only [kept, hdraws, hdraws']

/-- A sprite drawn twice at one place is gone. -/
theorem plane_draw_draw (sprite : Sprite) (x y : UInt8) :
    ((display.draw sprite x y).2.draw sprite x y).2.plane = display.plane := by
  apply Plane.ext_toNat
  intro p
  rw [toNat_isLit_draw, toNat_isLit_draw, Nat.mod_add_mod, Nat.add_assoc, ← Nat.two_mul,
    Nat.add_mul_mod_self_left]
  exact Nat.mod_eq_of_lt (Bool.toNat_lt _)

/-- A pixel is lit after a run exactly when it has met an odd number of set bits since the last
clear, where a pixel that was lit at the start has met one more unless it was cleared. The order of
the draws after the last clear does not matter, and a sprite drawn twice at one place is gone. -/
theorem plane_is_parity_of_draws :
    (∀ (display : Display) (commands : List Command) (p : Pixel),
      (display.run commands).plane.isLit p = true ↔
        Odd (display.kept commands p + ((Command.sinceClear commands).map (Command.cover p)).sum)) ∧
    (∀ (display : Display) (before draws draws' : List Command),
      Command.clear ∉ draws → draws.Perm draws' →
        (display.run (before ++ draws)).plane = (display.run (before ++ draws')).plane) ∧
    (∀ (display : Display) (sprite : Sprite) (x y : UInt8),
      (display.run [.draw sprite x y, .draw sprite x y]).plane = display.plane) := by
  refine ⟨?_, ?_, ?_⟩
  · intro display commands p
    rw [Nat.odd_iff, ← Command.coverSinceClear, ← toNat_isLit_run, Bool.toNat_eq_one]
  · intro display before draws draws' hdraws hperm
    rw [run_append, run_append]
    exact plane_run_perm _ hdraws hperm
  · intro display sprite x y
    exact plane_draw_draw display sprite x y

end Display

end Chip8
