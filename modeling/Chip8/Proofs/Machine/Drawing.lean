import Chip8.Machine.Execution
import Chip8.Proofs.Display.Collision

/-!
# Draw instructions

A draw instruction takes its sprite from memory, from the index register on and around the ring, and
its place on the plane from two registers. Which pixels that concerns is said from the machine alone
(`Covers`); the instruction inverts those and leaves the others, and flags whether one of them was lit
(`drawn_execute`). Drawn again, the same sprite is gone, unless the flag of the first time has moved it.

* `covers_iff`: the pixels concerned are those that the sprite covers.
* `exists_covers_iff`: there are some unless the sprite is blank.
* `machine_execute_draw`: nothing but the flag register, the display and the program counter changes.
* `drawing_twice_restores`: one draw, and two.
-/

namespace Chip8

/-- A row that is not blank has a bit set. -/
theorem Sprite.exists_mask_ne_zero {row : UInt8} (h : row ≠ 0) :
    ∃ c < 8, row &&& 0x80 >>> UInt8.ofNat c ≠ 0 := by
  have hrow : row.toNat ≠ 0 := by
    intro hzero
    exact h (UInt8.toNat_inj.1 hzero)
  obtain ⟨i, hi⟩ := Nat.exists_testBit_of_ne_zero hrow
  have hlt : i < 8 := by
    by_contra hge
    have hpow : 2 ^ 8 ≤ 2 ^ i := Nat.pow_le_pow_right (by decide) (by omega)
    have hbyte := row.toNat_lt
    rw [Nat.testBit_lt_two_pow (by omega)] at hi
    cases hi
  refine ⟨7 - i, by omega, (testBit_iff_mask row (by omega)).1 ?_⟩
  rwa [show 7 - (7 - i) = i by omega]

namespace RegisterFile

/-- Of two values for one register the second one stays. -/
theorem set_set (v : RegisterFile) (r : RegisterIndex) (first second : UInt8) :
    (v.set r first).set r second = v.set r second := by
  refine ext_get fun s => ?_
  rw [get_set, get_set, get_set]
  split <;> rfl

end RegisterFile

namespace Machine

/-- Row number `r` of the sprite that the index register points at. -/
def spriteRow (m : Machine) (r : ℕ) : UInt8 :=
  m.memory.bytes.get ⟨(m.index.toNat + r) % 4096, Nat.mod_lt _ (by decide)⟩

/-- A set bit of the `n` rows at the index register lands on a pixel when the sprite is placed at
`(Vx, Vy)`. -/
def Covers (m : Machine) (w : Opcode) (p : Pixel) : Prop :=
  ∃ r < w.n.val, ∃ c < 8, m.spriteRow r &&& 0x80 >>> UInt8.ofNat c ≠ 0 ∧
    ((m.registers.get w.x).toNat + c) % 64 = p.x ∧ ((m.registers.get w.y).toNat + r) % 32 = p.y

/-- The pixels concerned are those on which set bits of the sprite land. -/
theorem covers_iff (m : Machine) (w : Opcode) (p : Pixel) :
    m.Covers w p ↔
      0 < Sprite.cover (m.memory.slice m.index w.n) (m.registers.get w.x).toNat
        (m.registers.get w.y).toNat p := by
  -- the rows of the sprite that is drawn are those of the machine, cell by cell around the ring
  have hrow {r : ℕ} (hr : r < w.n.val) : (m.memory.slice m.index w.n).getD r 0 = m.spriteRow r := by
    rw [List.getD_eq_getElem _ _ (by rwa [Memory.length_slice]), Memory.getElem_slice, Memory.read_add]
    rfl
  rw [Sprite.cover, Finset.card_pos, Memory.length_slice]
  constructor
  · rintro ⟨r, hr, c, hc, hbit, hplace⟩
    refine ⟨(r, c), ?_⟩
    simp only [Finset.mem_filter, Finset.mem_product, Finset.mem_range, hrow hr]
    exact ⟨⟨hr, hc⟩, hbit, hplace⟩
  · rintro ⟨⟨r, c⟩, hmem⟩
    simp only [Finset.mem_filter, Finset.mem_product, Finset.mem_range] at hmem
    obtain ⟨⟨hr, hc⟩, hbit, hplace⟩ := hmem
    rw [hrow hr] at hbit
    exact ⟨r, hr, c, hc, hbit, hplace⟩

/-- A draw concerns some pixel unless all rows are blank. -/
theorem exists_covers_iff (m : Machine) (w : Opcode) :
    (∃ p, m.Covers w p) ↔ ∃ r < w.n.val, m.spriteRow r ≠ 0 := by
  constructor
  · rintro ⟨p, r, hr, c, -, hbit, -⟩
    refine ⟨r, hr, ?_⟩
    intro hblank
    rw [hblank, UInt8.zero_and] at hbit
    exact hbit rfl
  · rintro ⟨r, hr, hrow⟩
    obtain ⟨c, hc, hbit⟩ := Sprite.exists_mask_ne_zero hrow
    exact ⟨⟨⟨_, Nat.mod_lt _ (by decide)⟩, ⟨_, Nat.mod_lt _ (by decide)⟩⟩, r, hr, c, hc, hbit, rfl, rfl⟩

/-- What a draw makes of the plane and of the flag register. -/
structure Drawn (m : Machine) (w : Opcode) (after : Machine) : Prop where
  inverted : ∀ p, m.Covers w p → after.display.plane.isLit p = !m.display.plane.isLit p
  kept : ∀ p, ¬m.Covers w p → after.display.plane.isLit p = m.display.plane.isLit p
  flag_eq_one : after.registers.get RegisterFile.flag = 1 ↔
    ∃ p, m.Covers w p ∧ m.display.plane.isLit p = true
  flag_eq_zero : after.registers.get RegisterFile.flag = 0 ↔
    ∀ p, m.Covers w p → m.display.plane.isLit p = false

section Execute

variable (m : Machine) (w : Opcode)

/-- What is drawn by a draw instruction, and whether it collides. -/
theorem machine_execute_draw :
    (m.execute .draw w).machine =
      let drawn := m.display.draw (m.memory.slice m.index w.n) (m.registers.get w.x)
        (m.registers.get w.y)
      { m with
        registers := m.registers.set RegisterFile.flag drawn.1.toUInt8
        display := drawn.2
        pc := m.pc + 2 } := by
  rw [execute_eq]
  rfl

/-- **One draw.** It inverts the pixels that it covers, and flags whether one of them was lit. -/
theorem drawn_execute : Drawn m w (m.execute .draw w).machine := by
  have hheight : (m.memory.slice m.index w.n).length ≤ 32 := by
    rw [Memory.length_slice]
    omega
  have hlit := m.display.isLit_draw_of_length_le hheight (m.registers.get w.x) (m.registers.get w.y)
  have hcollided :=
    m.display.collided_draw_iff_of_length_le hheight (m.registers.get w.x) (m.registers.get w.y)
  simp only [← covers_iff] at hcollided
  have hone (flag : Bool) : flag.toUInt8 = 1 ↔ flag = true := by cases flag <;> decide
  have hzero (flag : Bool) : flag.toUInt8 = 0 ↔ ¬flag = true := by cases flag <;> decide
  rw [machine_execute_draw]
  constructor
  · intro p hp
    exact (hlit p).trans (if_pos ((covers_iff m w p).1 hp))
  · intro p hp
    exact (hlit p).trans (if_neg (mt (covers_iff m w p).2 hp))
  · rw [RegisterFile.get_set_self, hone, hcollided]
  · rw [RegisterFile.get_set_self, hzero, hcollided]
    simp only [not_exists, not_and, Bool.not_eq_true]

/-- Apart from the flag register, the plane and the display's flag, a draw moves the program counter
only. -/
theorem exists_execute_draw_eq :
    ∃ flag plane, (m.execute .draw w).machine =
      { m with
        registers := m.registers.set RegisterFile.flag flag
        display := ⟨plane, true⟩
        pc := m.pc + 2 } := by
  rw [machine_execute_draw]
  exact ⟨_, _, rfl⟩

end Execute

/-! ## Drawing again -/

section Again

variable (m : Machine) {w : Opcode} (hx : w.x ≠ RegisterFile.flag) (hy : w.y ≠ RegisterFile.flag)
include hx hy

/-- A draw whose place is not in the flag register is at the same place when it is drawn again. -/
theorem covers_execute_draw_iff (p : Pixel) : (m.execute .draw w).machine.Covers w p ↔ m.Covers w p := by
  obtain ⟨flag, plane, h⟩ := exists_execute_draw_eq m w
  rw [h]
  simp only [Covers, spriteRow, RegisterFile.get_set_of_ne _ hx.symm, RegisterFile.get_set_of_ne _ hy.symm]

/-- **Two draws.** The plane is as it was, and the flag tells whether a covered pixel was dark. -/
theorem drawn_execute_twice :
    let twice := ((m.execute .draw w).machine.execute .draw w).machine
    twice.display.plane = m.display.plane ∧
      (twice.registers.get RegisterFile.flag = 1 ↔
        ∃ p, m.Covers w p ∧ m.display.plane.isLit p = false) ∧
      (twice.registers.get RegisterFile.flag = 0 ↔
        ∀ p, m.Covers w p → m.display.plane.isLit p = true) := by
  intro twice
  have honce := drawn_execute m w
  have htwice := drawn_execute (m.execute .draw w).machine w
  have hcovers := covers_execute_draw_iff m hx hy
  -- the second draw concerns the same pixels, which the first one has inverted
  refine ⟨Plane.ext_isLit fun p => ?_, ?_, ?_⟩
  · by_cases hp : m.Covers w p
    · rw [htwice.inverted p ((hcovers p).2 hp), honce.inverted p hp, Bool.not_not]
    · rw [htwice.kept p (mt (hcovers p).1 hp), honce.kept p hp]
  · rw [htwice.flag_eq_one]
    refine exists_congr fun p => ?_
    rw [hcovers]
    refine and_congr_right fun hp => ?_
    rw [honce.inverted p hp, Bool.not_eq_true']
  · rw [htwice.flag_eq_zero]
    refine forall_congr' fun p => ?_
    rw [hcovers]
    refine imp_congr_right fun hp => ?_
    rw [honce.inverted p hp, Bool.not_eq_false']

/-- Two draws change the flag register and the display's flag, and move the program counter past two
instructions. -/
theorem execute_draw_twice_eq :
    let twice := ((m.execute .draw w).machine.execute .draw w).machine
    twice = { m with
      registers := m.registers.set RegisterFile.flag (twice.registers.get RegisterFile.flag)
      display := ⟨m.display.plane, true⟩
      pc := m.pc + 4 } := by
  intro twice
  have hplane : twice.display.plane = m.display.plane := (drawn_execute_twice m hx hy).1
  obtain ⟨first, plane, honce⟩ := exists_execute_draw_eq m w
  obtain ⟨second, plane', htwice⟩ := exists_execute_draw_eq (m.execute .draw w).machine w
  have htwice' : twice = { m with
      registers := m.registers.set RegisterFile.flag second
      display := ⟨plane', true⟩
      pc := m.pc + 4 } := by
    rw [show twice = _ from htwice, honce]
    simp only [RegisterFile.set_set, UInt16.add_assoc]
    rfl
  have hflag : twice.registers.get RegisterFile.flag = second := by
    rw [htwice', RegisterFile.get_set_self]
  have hkept : plane' = m.display.plane := by
    rw [← hplane, htwice']
  rw [hflag, htwice', hkept]

end Again

/-- **Drawing twice.** A draw instruction inverts the pixels that its sprite covers, and flags whether
one of them was lit; the place of the sprite is read from the registers before the flag is written,
also if it is in the flag register. If it is not, the same instruction takes the sprite away again, and
flags whether one of its pixels was dark before; it flags nothing either time just if all rows are
blank. Apart from that, two draws move the program counter only. -/
theorem drawing_twice_restores :
    (∀ (m : Machine) (w : Opcode),
      let once := m.execute .draw w
      once.result = .ok .redraw ∧ Drawn m w once.machine ∧
      ∃ flag plane, once.machine =
        { m with
          registers := m.registers.set RegisterFile.flag flag
          display := ⟨plane, true⟩
          pc := m.pc + 2 }) ∧
    (∀ (m : Machine) (w : Opcode), w.x ≠ RegisterFile.flag → w.y ≠ RegisterFile.flag →
      let once := (m.execute .draw w).machine
      let twice := (once.execute .draw w).machine
      twice.display.plane = m.display.plane ∧
      (twice.registers.get RegisterFile.flag = 1 ↔
        ∃ p, m.Covers w p ∧ m.display.plane.isLit p = false) ∧
      (twice.registers.get RegisterFile.flag = 0 ↔
        ∀ p, m.Covers w p → m.display.plane.isLit p = true) ∧
      (once.registers.get RegisterFile.flag = 0 ∧ twice.registers.get RegisterFile.flag = 0 ↔
        ∀ r < w.n.val, m.spriteRow r = 0) ∧
      twice = { m with
        registers := m.registers.set RegisterFile.flag (twice.registers.get RegisterFile.flag)
        display := ⟨m.display.plane, true⟩
        pc := m.pc + 4 }) := by
  refine ⟨?_, ?_⟩
  · intro m w once
    have hresult : once.result = .ok .redraw := by
      rw [show once = _ from execute_eq m .draw w]
      rfl
    exact ⟨hresult, drawn_execute m w, exists_execute_draw_eq m w⟩
  · intro m w hx hy once twice
    have honce : Drawn m w once := drawn_execute m w
    obtain ⟨hplane, hone, hzero⟩ : twice.display.plane = m.display.plane ∧ _ ∧ _ :=
      drawn_execute_twice m hx hy
    refine ⟨hplane, hone, hzero, ?_, execute_draw_twice_eq m hx hy⟩
    have hblank : (∀ r < w.n.val, m.spriteRow r = 0) ↔ ∀ p, ¬m.Covers w p := by
      rw [← not_exists, exists_covers_iff]
      simp only [not_exists, not_and, Decidable.not_not]
    rw [honce.flag_eq_zero, hzero, hblank]
    constructor
    · rintro ⟨hdark, hlit⟩ p hp
      -- a pixel that is covered was dark by the first flag and lit by the second one
      have hneither := (hdark p hp).symm.trans (hlit p hp)
      cases hneither
    · intro hnone
      exact ⟨fun p hp => absurd hp (hnone p), fun p hp => absurd hp (hnone p)⟩

/-- Around the end of memory and over the lower right corner, two rows of two bits are drawn where one
pixel is lit: there is a collision both times. With the column in the flag register, the value that the
register has before the draw is the column. -/
theorem corner_drawn_twice :
    let m : Machine := { fresh .indexed (.ofSeed 0) with
      memory := ⟨Vector.replicate 4096 0xC0⟩
      registers := ⟨#v[0, 63, 31, 0, 0, 0, 0, 0, 0, 0, 0, 0, 0, 0, 0, 62]⟩
      index := 0xFFF
      display := ⟨Plane.blank.toggle ⟨0, 0⟩, false⟩ }
    let w : Opcode := ⟨0xD122⟩
    let once := (m.execute .draw w).machine
    let twice := (once.execute .draw w).machine
    let aliased := (m.execute .draw ⟨0xDF22⟩).machine
    (w.x ≠ RegisterFile.flag ∧ w.y ≠ RegisterFile.flag) ∧
    (once.registers.get RegisterFile.flag = 1 ∧ once.display.plane.isLit ⟨63, 31⟩ = true) ∧
    (twice.registers.get RegisterFile.flag = 1 ∧ twice.display.plane = m.display.plane ∧
      twice.pc = 0x204) ∧
    aliased.display.plane.isLit ⟨62, 31⟩ = true := by
  intro m w once twice aliased
  obtain ⟨hone, htwo⟩ := drawing_twice_restores
  have hrow (r : ℕ) : m.spriteRow r = 0xC0 := by simp [spriteRow, m, Vector.get]
  have hcovers {p : Pixel} (w' : Opcode) (r c : ℕ) (hr : r < w'.n.val) (hc : c < 8)
      (hbit : (0xC0 : UInt8) &&& 0x80 >>> UInt8.ofNat c ≠ 0)
      (hx : ((m.registers.get w'.x).toNat + c) % 64 = p.x)
      (hy : ((m.registers.get w'.y).toNat + r) % 32 = p.y) : m.Covers w' p :=
    ⟨r, hr, c, hc, by rwa [hrow], hx, hy⟩
  have hcorner : m.Covers w ⟨63, 31⟩ :=
    hcovers w 0 0 (by decide) (by decide) (by decide) (by decide) (by decide)
  have horigin : m.Covers w ⟨0, 0⟩ :=
    hcovers w 1 1 (by decide) (by decide) (by decide) (by decide) (by decide)
  have haliased : m.Covers ⟨0xDF22⟩ ⟨62, 31⟩ :=
    hcovers ⟨0xDF22⟩ 0 0 (by decide) (by decide) (by decide) (by decide) (by decide)
  have hdark (x : Fin 64) : m.display.plane.isLit ⟨x, 31⟩ = false := by
    rw [Plane.isLit_toggle, if_neg (by simp), Plane.isLit_blank]
  have hlight : m.display.plane.isLit ⟨0, 0⟩ = true := by
    rw [Plane.isLit_toggle, if_pos rfl, Plane.isLit_blank]
    rfl
  obtain ⟨-, honce, -⟩ := hone m w
  obtain ⟨-, hdrawn, -⟩ := hone m ⟨0xDF22⟩
  have hneither : w.x ≠ RegisterFile.flag ∧ w.y ≠ RegisterFile.flag := by decide
  obtain ⟨hplane, hflag, -, -, htwice⟩ := htwo m w hneither.1 hneither.2
  refine ⟨hneither, ⟨honce.flag_eq_one.2 ⟨_, horigin, hlight⟩, ?_⟩,
    ⟨hflag.2 ⟨_, hcorner, hdark 63⟩, hplane, ?_⟩, ?_⟩
  · rw [honce.inverted _ hcorner, hdark 63]
    rfl
  · rw [show twice = _ from htwice]
    rfl
  · rw [hdrawn.inverted _ haliased, hdark 62]
    rfl

end Machine

end Chip8
