import Chip8.Proofs.Bounds.Folding
import Chip8.Proofs.Bounds.Storage
import Chip8.Proofs.Display.Cover

/-!
# Checked loops

The loops of a machine as loops over numbers, with every access and every sum checked: block transfers
in both directions (`bring?`, `take?`), drawing (`draw?`) and putting a program into memory
(`install?`). Each is followed by the conditions under which none of its checks fails, and by what comes
of it then.
-/

namespace Chip8

open Checked

namespace Storage

/-! ## Block transfers -/

/-- Copies bytes from memory to the registers of the given numbers. -/
def bring? (s : Storage) (numbers : List Nat) (address : Nat → UInt16) : Option Storage := do
  let values ← numbers.foldlM (fun values i => do put values i (← s.read? (address i)))
    s.registers.values
  return { s with registers := ⟨values⟩ }

/-- Copies the registers of the given numbers to memory. -/
def take? (s : Storage) (numbers : List Nat) (address : Nat → UInt16) : Option Storage :=
  numbers.foldlM (fun s i => do s.write? (address i) (← s.register? i)) s

/-- A run of registers is its first one and the run after it. -/
theorem window_succ (registers : RegisterFile) {base : ℕ} (h : base < 16) (count : ℕ) :
    registers.window base (count + 1) =
      registers.get ⟨base, h⟩ :: registers.window (base + 1) count := by
  have hlength : base < registers.values.toList.length := by rwa [Vector.length_toList]
  rw [RegisterFile.window, List.drop_eq_getElem_cons hlength, List.take_succ_cons,
    Vector.getElem_toList]
  rfl

section Transfers

variable (m : Machine) {base count : ℕ} (hfits : base + count ≤ 16) {address : ℕ → UInt16}
include hfits

/-- A load of registers that exist fails no check, whatever the addresses are. -/
theorem bring?_storage
    (haddress : ∀ i, base ≤ i → address i = m.index + UInt16.ofNat (i - base)) :
    m.storage.bring? (List.range' base count) address = some (m.bringRun base count).storage := by
  have hloop := foldlM_put m.storage.registers.values hfits (fun i => m.storage.read? (address i))
    (fun i => m.memory.read (address i)) fun i _ _ => read?_storage m (address i)
  have hvalues : (⟨.ofFn fun i => if base ≤ i.val ∧ i.val < base + count then
      m.memory.read (address i) else m.storage.registers.values[i]⟩ : RegisterFile) =
      m.registers.overwrite base (m.memory.slice m.index count) := by
    -- register by register: in the window it has the byte brought there, outside its own value
    refine RegisterFile.ext_get fun r => ?_
    rw [RegisterFile.get_overwrite, RegisterFile.get, Fin.getElem_fin, Vector.getElem_ofFn]
    by_cases hbase : base ≤ r.val
    · rw [if_pos hbase]
      by_cases hlast : r.val < base + count
      · have hplace : r.val - base < (m.memory.slice m.index count).length := by
          rw [Memory.length_slice]
          omega
        rw [if_pos ⟨hbase, hlast⟩, List.getD_eq_getElem _ _ hplace, Memory.getElem_slice,
          haddress r hbase]
      · rw [if_neg fun h => hlast h.2, List.getD_eq_default]
        · rfl
        · rw [Memory.length_slice]
          omega
    · rw [if_neg hbase, if_neg fun h => hbase h.1]
      rfl
  rw [bring?, hloop, Option.bind_eq_bind, Option.bind_some, hvalues]
  rfl

/-- A store of registers that exist fails no check, whatever the addresses are. -/
theorem take?_storage {start : UInt16}
    (haddress : ∀ i, base ≤ i → address i = start + UInt16.ofNat (i - base)) :
    m.storage.take? (List.range' base count) address =
      some { m with
        memory := m.memory.writeAll start (m.registers.window base count) }.storage := by
  -- from the first register on, as each write leaves the storage of another machine
  induction count generalizing m base start with
  | zero => rfl
  | succ count ih =>
    have hbase : base < 16 := by omega
    have hfirst : address base = start := by
      rw [haddress base (Nat.le_refl base), Nat.sub_self]
      exact UInt16.add_zero start
    have hnext (i : ℕ) (hi : base + 1 ≤ i) :
        address i = start + 1 + UInt16.ofNat (i - (base + 1)) := by
      have hsucc : i - base = 1 + (i - (base + 1)) := by omega
      rw [haddress i (by omega), hsucc, UInt16.ofNat_add, UInt16.add_assoc]
      rfl
    have hstep : (do m.storage.write? (address base) (← m.storage.register? base)) =
        some { m with
          memory := m.memory.write start (m.registers.get ⟨base, hbase⟩) }.storage := by
      have hread : m.storage.register? base = some (m.registers.get ⟨base, hbase⟩) :=
        register?_storage m ⟨base, hbase⟩
      rw [hread, hfirst]
      exact write?_storage m start _
    rw [take?, List.range'_succ, List.foldlM_cons, hstep, window_succ m.registers hbase]
    exact ih _ (by omega) hnext

end Transfers

/-! ## Drawing -/

/-- The pixel of a row and a column. -/
def pixel? (row column : Nat) : Option Pixel :=
  if h : row < 32 ∧ column < 64 then some ⟨⟨column, h.2⟩, ⟨row, h.1⟩⟩ else none

/-- Toggles the pixel under one bit of a row of a sprite, if the bit is set. -/
def drawBit? (bits : UInt8) (x row : Nat) (stroke : Stroke) (shift : Nat) : Option Stroke := do
  let amount ← unsigned 3 shift
  if bits &&& 0x80 >>> UInt8.ofNat amount = 0 then
    return stroke
  else
    let column ← fold? (← signed (x + shift)) 64
    return stroke.touch (← pixel? row column)

/-- Toggles the pixels under the set bits of one row of a sprite. -/
def drawRow? (stroke : Stroke) (bits : UInt8) (x row : Nat) : Option Stroke :=
  (List.range 8).foldlM (drawBit? bits x row) stroke

/-- Toggles the pixels under the set bits of the rows of a sprite from number `row` on. -/
def drawRows? (stroke : Stroke) (x y row : Nat) : Sprite → Option Stroke
  | [] => some stroke
  | bits :: below => do
    let line ← fold? (← signed (y + row)) 32
    let stroke ← drawRow? stroke bits x line
    drawRows? stroke x y (row + 1) below

/-- Draws a sprite with its upper left corner at `(x, y)`, and tells whether a lit pixel was switched
off. -/
def draw? (display : Display) (sprite : Sprite) (x y : UInt8) : Option (Bool × Display) := do
  let stroke ← drawRows? ⟨display.plane, false⟩ x.toNat y.toNat 0 sprite
  return (stroke.collided, ⟨stroke.plane, true⟩)

section Drawing

/-- Folded coordinates are those of a pixel. -/
theorem pixel?_fold (x y : ℤ) :
    pixel? (Coordinate.fold y 32) (Coordinate.fold x 64) = some (Pixel.wrapped x y) :=
  dif_pos ⟨Coordinate.fold_lt y (by decide), Coordinate.fold_lt x (by decide)⟩

variable {x : ℕ} (hx : x < 256)
include hx

/-- One bit of a sprite is drawn with no check failing, and touches the pixel that it lies on. -/
theorem drawBit?_eq (bits : UInt8) (y : ℤ) (stroke : Stroke) {shift : ℕ} (hshift : shift < 8) :
    drawBit? bits x (Coordinate.fold y 32) stroke shift =
      some (if bits.toNat.testBit (7 - shift) then stroke.touch (Pixel.wrapped (x + shift) y)
        else stroke) := by
  have hmask := Sprite.testBit_iff_mask bits hshift
  have hsigned : IsSigned (x + shift) := ⟨by omega, by omega⟩
  rw [drawBit?, unsigned_of_lt hshift, Option.bind_eq_bind, Option.bind_some]
  by_cases hclear : bits &&& 0x80 >>> UInt8.ofNat shift = 0
  · rw [if_pos hclear, if_neg (mt hmask.1 (not_not_intro hclear))]
    rfl
  · rw [if_neg hclear, if_pos (hmask.2 hclear), signed_of_isSigned hsigned, Option.bind_eq_bind,
      Option.bind_some, fold?_eq (by decide) (by decide) hsigned, Option.bind_eq_bind,
      Option.bind_some, pixel?_fold]
    rfl

/-- A row of a sprite is drawn with no check failing. -/
theorem drawRow?_eq (stroke : Stroke) (bits : UInt8) (y : ℤ) :
    drawRow? stroke bits x (Coordinate.fold y 32) =
      some (((Sprite.columns bits).map fun (column : ℕ) =>
        Pixel.wrapped (x + column) y).foldl Stroke.touch stroke) := by
  -- for any columns, as the loop over the eight does not go by induction
  have hloop (shifts : List ℕ) (hshifts : ∀ shift ∈ shifts, shift < 8) :
      shifts.foldlM (drawBit? bits x (Coordinate.fold y 32)) stroke =
        some (((shifts.filter fun column => bits.toNat.testBit (7 - column)).map
          fun (column : ℕ) => Pixel.wrapped (x + column) y).foldl Stroke.touch stroke) := by
    induction shifts generalizing stroke with
    | nil => rfl
    | cons shift rest ih =>
      obtain ⟨hshift, hrest⟩ := List.forall_mem_cons.1 hshifts
      rw [List.foldlM_cons, drawBit?_eq hx bits y stroke hshift, Option.bind_eq_bind,
        Option.bind_some, ih _ hrest, List.filter_cons]
      split <;> rfl
  exact hloop (List.range 8) fun shift => List.mem_range.1

/-- No check fails while a sprite is drawn whose rows can be counted in a word with a sign. -/
theorem drawRows?_eq (stroke : Stroke) {y row : ℕ} {sprite : Sprite} (hy : y < 256)
    (hrows : row + sprite.length ≤ 2 ^ 62) :
    drawRows? stroke x y row sprite =
      some ((sprite.pixels x (y + row)).foldl Stroke.touch stroke) := by
  induction sprite generalizing stroke row with
  | nil => rfl
  | cons bits below ih =>
    rw [List.length_cons] at hrows
    -- the sum stays in its word since rows are counted up to 2 ^ 62 only
    have hsigned : IsSigned (y + row) := ⟨by omega, by omega⟩
    rw [drawRows?, signed_of_isSigned hsigned, Option.bind_eq_bind, Option.bind_some,
      fold?_eq (by decide) (by decide) hsigned, Option.bind_eq_bind, Option.bind_some,
      drawRow?_eq hx, Option.bind_eq_bind, Option.bind_some, ih _ (by omega), Sprite.pixels,
      List.foldl_append, Nat.cast_add, Nat.add_assoc]

end Drawing

/-- A sprite is drawn with no check failing, wherever its corner is. -/
theorem draw?_eq (display : Display) {sprite : Sprite} (hrows : sprite.length ≤ 2 ^ 62)
    (x y : UInt8) : draw? display sprite x y = some (display.draw sprite x y) := by
  rw [draw?, drawRows?_eq x.toNat_lt _ y.toNat_lt (by omega)]
  rfl

/-! ## Programs -/

/-- Copies an image to the start address, as far as there is room. The places to copy to and the bytes to
copy have to be equally many. -/
def install? (s : Storage) (image : Array UInt8) : Option Storage := do
  let stop ← unsigned 64 (Memory.programStart + min image.size Memory.programRoom)
  let places ← window 4096 Memory.programStart stop
  let given ← window image.size 0 (← difference stop Memory.programStart)
  if places = given then
    let bytes ← (List.range' Memory.programStart places).foldlM
      (fun bytes i => do put bytes i (← image[i - Memory.programStart]?)) s.memory.bytes
    return { s with memory := ⟨bytes⟩ }
  else
    none

/-- An image of any size is copied with no check failing. -/
theorem install?_storage (m : Machine) (image : Array UInt8) :
    m.storage.install? image =
      some { m with memory := m.memory.install image }.storage := by
  have hstart : Memory.programStart = 512 := rfl
  have hroom : Memory.programRoom = 3584 := rfl
  generalize hcount : min image.size Memory.programRoom = count
  have hplaces : Memory.programStart + count - Memory.programStart = count := by omega
  have hfits : Memory.programStart + count ≤ 4096 := by omega
  have hloop := foldlM_put m.memory.bytes hfits (fun i => image[i - Memory.programStart]?)
    (fun i => image.getD (i - Memory.programStart) 0) fun i hlow hhigh => by
      have hplace : i - Memory.programStart < image.size := by omega
      simp [Array.getD, hplace]
  have hmemory : (⟨.ofFn fun i => if Memory.programStart ≤ i.val ∧
      i.val < Memory.programStart + count then image.getD (i - Memory.programStart) 0
      else m.memory.bytes[i]⟩ : Memory) = m.memory.install image := by
    -- byte by byte: below the start, in the image, and behind it
    refine congrArg Memory.mk (Vector.ext fun i hi => ?_)
    rw [Vector.getElem_ofFn, Vector.getElem_ofFn]
    dsimp only
    by_cases hlow : i < Memory.programStart
    · rw [if_pos hlow, if_neg (by omega)]
    · rw [if_neg hlow]
      by_cases hplace : i - Memory.programStart < image.size
      · rw [if_pos ⟨by omega, by omega⟩]
        simp [Array.getD, hplace]
      · rw [if_neg (by omega)]
        simp [Array.getD, hplace]
  -- the numbers that are checked before the loop, none of which depends on the image
  have hsum : unsigned 64 (Memory.programStart + count) = some (Memory.programStart + count) :=
    unsigned_of_lt (by omega)
  have hslice : window 4096 Memory.programStart (Memory.programStart + count) = some count := by
    rw [window_of_le (by omega) hfits, hplaces]
  have hlength : difference (Memory.programStart + count) Memory.programStart = some count := by
    rw [difference_of_le (by omega), hplaces]
  have hgiven : window image.size 0 count = some count := window_of_le (by omega) (by omega)
  rw [← hmemory]
  simp only [install?, hcount, hsum, hslice, hlength, hgiven, Option.bind_eq_bind, Option.bind_some,
    if_true]
  exact congrArg (Option.bind · _) hloop

end Storage

end Chip8
