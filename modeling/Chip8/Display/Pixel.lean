/-!
# Pixels

The plane is 64 pixels wide and 32 high, and closed on itself on both axes: every pair of integers
names a pixel, each coordinate being folded back by its Euclidean remainder.
-/

namespace Chip8

namespace Coordinate

/-- Folds a coordinate onto `0 … size - 1`, also from below zero. -/
def fold (coordinate : Int) (size : Nat) : Nat :=
  (coordinate % size).toNat

/-- What a coordinate folds to is on the axis. -/
theorem fold_lt (coordinate : Int) {size : Nat} (h : 0 < size) : fold coordinate size < size := by
  have hpos : (0 : Int) < size := by omega
  have hnonneg := Int.emod_nonneg coordinate (Int.ne_of_gt hpos)
  have hlt := Int.emod_lt_of_pos coordinate hpos
  unfold fold
  omega

/-- As an integer, what a coordinate folds to is its Euclidean remainder. -/
theorem natCast_fold (coordinate : Int) {size : Nat} (hsize : 0 < size) :
    (fold coordinate size : Int) = coordinate % size := by
  have hnonneg := Int.emod_nonneg coordinate (Int.natCast_ne_zero.2 (Nat.ne_of_gt hsize))
  exact Int.toNat_of_nonneg hnonneg

/-- A coordinate that is not negative folds to its remainder. -/
theorem fold_natCast (n size : Nat) : fold n size = n % size := by
  unfold fold
  rw [← Int.natCast_emod, Int.toNat_natCast]

example : fold (-33) 32 = 31 ∧ fold 200 64 = 8 := by decide

end Coordinate

/-- A point of the plane: column and row, counted from the upper left corner. -/
structure Pixel where
  x : Fin 64
  y : Fin 32
deriving DecidableEq, Repr

namespace Pixel

/-- The pixel that two integers name. -/
def wrapped (x y : Int) : Pixel :=
  ⟨⟨Coordinate.fold x 64, Coordinate.fold_lt x (by decide)⟩,
    ⟨Coordinate.fold y 32, Coordinate.fold_lt y (by decide)⟩⟩

/-- All pixels, row by row, each row from left to right. -/
def all : List Pixel :=
  (List.finRange 32).flatMap fun y => (List.finRange 64).map fun x => ⟨x, y⟩

/-- Every pixel is in `all`. -/
theorem mem_all (p : Pixel) : p ∈ all := by
  simp only [all, List.mem_flatMap, List.mem_map]
  exact ⟨p.y, List.mem_finRange _, p.x, List.mem_finRange _, rfl⟩

end Pixel

end Chip8
