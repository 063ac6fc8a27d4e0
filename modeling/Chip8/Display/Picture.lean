import Chip8.Display.Plane

/-!
# Pictures

A plane as lines of text, for terminals: lit pixels are `#`, dark ones blank, each as many
characters wide and lines high as the magnification says.
-/

namespace Chip8.Plane

/-- One row of the plane as text. -/
def rowText (plane : Plane) (magnification : Nat) (y : Fin 32) : String :=
  String.ofList <| (List.finRange 64).flatMap fun x =>
    List.replicate magnification (if plane.isLit ⟨x, y⟩ then '#' else ' ')

/-- The plane as text, from the top row down. -/
def picture (plane : Plane) (magnification : Nat) : List String :=
  (List.finRange 32).flatMap fun y =>
    List.replicate magnification (plane.rowText magnification y)

end Chip8.Plane
