import Chip8.Display.Sprite

/-!
# The display

The display is the plane together with a flag for whoever presents it: the picture shown last is
stale after every clear and every draw, also one that changes no pixel, until the flag is taken.
-/

namespace Chip8

/-- A plane, and whether it was cleared or drawn on since the flag was last taken. -/
structure Display where
  plane : Plane
  stale : Bool
deriving DecidableEq

namespace Display

/-- A blank plane that nobody has drawn on. -/
def initial : Display :=
  ⟨Plane.blank, false⟩

/-- Switches all pixels off. -/
def clear (_ : Display) : Display :=
  ⟨Plane.blank, true⟩

/-- Draws a sprite with its upper left corner at `(x, y)`, and tells whether a lit pixel was
switched off. -/
def draw (display : Display) (sprite : Sprite) (x y : UInt8) : Bool × Display :=
  let stroke := display.plane.draw (sprite.pixels x.toNat y.toNat)
  (stroke.collided, ⟨stroke.plane, true⟩)

/-- Whether the pixel at two 64-bit coordinates is lit. The coordinates are read as signed numbers:
the largest one names the column left of column zero, and the row above row zero. -/
def litAt (display : Display) (x y : UInt64) : Bool :=
  display.plane.isLit (Pixel.wrapped x.toInt64.toInt y.toInt64.toInt)

/-- The flag, and the display with the flag reset. -/
def takeStale (display : Display) : Bool × Display :=
  (display.stale, { display with stale := false })

end Display

end Chip8
