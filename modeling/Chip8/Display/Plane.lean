import Chip8.Display.Pixel

/-!
# The plane

The plane holds one bit a pixel. Pixels change only by being toggled or by blanking the whole plane.
`isLit` is what a plane means; `ext_isLit` says that it determines the plane.
-/

namespace Chip8

/-- One bit for each pixel, row by row. -/
structure Plane where
  cells : Vector Bool 2048
deriving DecidableEq

namespace Plane

/-- The place of a pixel among the cells. -/
def slot (p : Pixel) : Fin 2048 :=
  ⟨64 * p.y + p.x, by omega⟩

/-- No pixel is lit. -/
def blank : Plane :=
  ⟨Vector.replicate 2048 false⟩

/-- Whether a pixel is lit. -/
def isLit (plane : Plane) (p : Pixel) : Bool :=
  plane.cells[slot p]

/-- Switches one pixel over. -/
def toggle (plane : Plane) (p : Pixel) : Plane :=
  let lit := plane.isLit p
  ⟨plane.cells.set (slot p) (!lit) (slot p).isLt⟩

/-- The lit pixels, row by row, each row from left to right. -/
def lit (plane : Plane) : List Pixel :=
  Pixel.all.filter plane.isLit

/-- Different pixels have different places. -/
theorem slot_inj {p q : Pixel} : slot p = slot q ↔ p = q := by
  constructor
  · intro h
    cases p with | mk px py => cases q with | mk qx qy =>
    simp only [slot, Fin.mk.injEq] at h
    simp only [Pixel.mk.injEq, Fin.ext_iff]
    omega
  · rintro rfl
    rfl

/-- A pixel after one of the pixels was toggled. -/
theorem isLit_toggle (plane : Plane) (p q : Pixel) :
    (plane.toggle p).isLit q = if p = q then !plane.isLit q else plane.isLit q := by
  simp only [toggle, isLit, Fin.getElem_fin, Vector.getElem_set, ← Fin.ext_iff, slot_inj]
  split
  · next h => rw [h]
  · rfl

/-- On the blank plane no pixel is lit. -/
@[simp] theorem isLit_blank (p : Pixel) : blank.isLit p = false := by
  simp only [isLit, blank, Fin.getElem_fin, Vector.getElem_replicate]

/-- Two planes with the same lit pixels are equal. -/
theorem ext_isLit {a b : Plane} (h : ∀ p, a.isLit p = b.isLit p) : a = b := by
  cases a with | mk cells => cases b with | mk cells' =>
  congr 1
  refine Vector.ext fun i hi => ?_
  have hp := h ⟨⟨i % 64, by omega⟩, ⟨i / 64, by omega⟩⟩
  have hslot : 64 * (i / 64) + i % 64 = i := Nat.div_add_mod i 64
  simpa only [isLit, slot, Fin.getElem_fin, hslot] using hp

/-- The list of lit pixels holds exactly those. -/
theorem mem_lit (plane : Plane) (p : Pixel) : p ∈ plane.lit ↔ plane.isLit p = true := by
  simp only [lit, List.mem_filter, Pixel.mem_all, true_and]

end Plane

end Chip8
