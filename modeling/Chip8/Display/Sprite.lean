import Chip8.Display.Plane

/-!
# Sprites

A sprite is a column of bytes, each a row of eight pixels with the highest bit on the left. Drawing
one toggles the pixels under its set bits one after the other, row by row and from left to right,
and tells whether any of them was lit when its turn came. A sprite taller than the plane comes round
to rows that it has covered already.
-/

namespace Chip8

/-- Rows of eight pixels, the top row first. -/
abbrev Sprite := List UInt8

namespace Sprite

/-- The columns of a row whose bits are set, from left to right. -/
def columns (row : UInt8) : List Nat :=
  (List.range 8).filter fun column => row.toNat.testBit (7 - column)

/-- The pixels under the set bits of a sprite whose upper left corner is at `(x, y)`, in the order
of drawing. -/
def pixels (sprite : Sprite) (x y : Nat) : List Pixel :=
  match sprite with
  | [] => []
  | row :: below =>
    (columns row).map (fun (column : Nat) => Pixel.wrapped (x + column) y) ++
      pixels below x (y + 1)

/-- A sprite in two parts covers what the upper part covers, then what the lower part covers as far
down as the upper part is high. -/
theorem pixels_append (upper lower : Sprite) (x y : Nat) :
    pixels (upper ++ lower) x y = upper.pixels x y ++ lower.pixels x (y + upper.length) := by
  induction upper generalizing y with
  | nil => simp only [List.nil_append, pixels, List.length_nil, Nat.add_zero]
  | cons row below ih =>
    simp only [List.cons_append, pixels, ih, List.append_assoc, List.length_cons]
    rw [show y + 1 + below.length = y + (below.length + 1) by omega]

end Sprite

/-- A plane that is being drawn on, and whether a lit pixel has been switched off so far. -/
structure Stroke where
  plane : Plane
  collided : Bool
deriving DecidableEq

namespace Stroke

/-- Toggles one pixel. -/
def touch (stroke : Stroke) (p : Pixel) : Stroke :=
  let lit := stroke.plane.isLit p
  ⟨stroke.plane.toggle p, stroke.collided || lit⟩

end Stroke

namespace Plane

/-- Toggles pixels one after the other. -/
def draw (plane : Plane) (pixels : List Pixel) : Stroke :=
  pixels.foldl Stroke.touch ⟨plane, false⟩

end Plane

end Chip8
