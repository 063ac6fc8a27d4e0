import Chip8.Font

/-!
# Memory

Memory is a ring of 4096 bytes. Addresses are 16-bit words of which only the low twelve bits count,
so that each byte has sixteen addresses and arithmetic on addresses wraps before it is reduced.
Everything is stated through `read`: what `write` and `install` do to it, and how a run of bytes
is made of single ones.
-/

namespace Chip8

/-- The 4096 bytes that programs, their data and the font share. -/
structure Memory where
  bytes : Vector UInt8 4096
deriving DecidableEq

namespace Memory

/-- Where a program image begins. -/
def programStart : Nat := 0x200

/-- The bytes from `programStart` to the end of memory. -/
def programRoom : Nat := 3584

/-- The cell that an address names: its low twelve bits. -/
def cell (address : UInt16) : Fin 4096 :=
  ⟨address.toNat % 4096, Nat.mod_lt _ (by decide)⟩

/-- The font in the first bytes, zero elsewhere. -/
def initial : Memory :=
  ⟨Vector.ofFn fun i => Font.bytes.getD i 0⟩

/-- The byte at an address. -/
def read (m : Memory) (address : UInt16) : UInt8 :=
  m.bytes[cell address]

/-- Replaces the byte at an address. -/
def write (m : Memory) (address : UInt16) (value : UInt8) : Memory :=
  ⟨m.bytes.set (cell address) value (cell address).isLt⟩

/-- The big-endian word at an address. -/
def word (m : Memory) (address : UInt16) : UInt16 :=
  (m.read address).toUInt16 * 256 + (m.read (address + 1)).toUInt16

/-- The `count` bytes from an address on. -/
def slice (m : Memory) (address : UInt16) (count : Nat) : List UInt8 :=
  (List.range count).map fun i => m.read (address + UInt16.ofNat i)

/-- Replaces the bytes from an address on, the first one first. -/
def writeAll (m : Memory) (address : UInt16) : List UInt8 → Memory
  | [] => m
  | value :: rest => (m.write address value).writeAll (address + 1) rest

/-- Puts an image at `programStart`. What lies past the end of memory is cut off, and bytes that the
image does not reach stay as they were. -/
def install (m : Memory) (image : Array UInt8) : Memory :=
  ⟨Vector.ofFn fun i =>
    if i < programStart then m.bytes[i] else image.getD (i - programStart) m.bytes[i]⟩

/-! ## Single bytes -/

/-- A cell by the address that is its number. -/
theorem read_ofNat (m : Memory) (i : Fin 4096) : m.read (UInt16.ofNat i) = m.bytes[i] := by
  have hcell : cell (UInt16.ofNat i) = i := by
    rw [Fin.ext_iff]
    simp only [cell, UInt16.toNat_ofNat']
    omega
  simp only [read, hcell]

/-- Two memories with the same byte at every address are equal. -/
theorem ext_read {m n : Memory} (h : ∀ address, m.read address = n.read address) : m = n := by
  cases m with | mk bytes => cases n with | mk bytes' =>
  congr 1
  refine Vector.ext fun i hi => ?_
  have hread := h (UInt16.ofNat i)
  rwa [read_ofNat _ ⟨i, hi⟩, read_ofNat _ ⟨i, hi⟩] at hread

/-- Two memories with the same byte in every cell are equal. -/
theorem ext_get {m n : Memory} (h : ∀ i, m.bytes.get i = n.bytes.get i) : m = n := by
  cases m with | mk bytes => cases n with | mk bytes' =>
  congr 1
  exact Vector.ext fun i hi => h ⟨i, hi⟩

/-- A write is seen at exactly the addresses of its cell. -/
theorem read_write (m : Memory) (a b : UInt16) (value : UInt8) :
    (m.write a value).read b = if cell a = cell b then value else m.read b := by
  simp only [read, write, Fin.getElem_fin, Vector.getElem_set, Fin.ext_iff]

/-- To write a byte where it is changes nothing. -/
theorem write_read (m : Memory) (a : UInt16) : m.write a (m.read a) = m := by
  apply ext_read
  intro b
  rw [read_write]
  split
  · next hcell => simp only [read, hcell]
  · rfl

/-! ## Runs of bytes -/

/-- A run of bytes is as long as it is asked to be. -/
@[simp] theorem length_slice (m : Memory) (address : UInt16) (count : Nat) :
    (m.slice address count).length = count := by
  simp [slice]

/-- Each byte of a run is read at its own address. -/
@[simp] theorem getElem_slice (m : Memory) (address : UInt16) (count i : Nat)
    (h : i < (m.slice address count).length) :
    (m.slice address count)[i] = m.read (address + UInt16.ofNat i) := by
  simp [slice]

/-- The bytes from an address on lie in neighbouring cells, around the ring. -/
theorem read_add (m : Memory) (address : UInt16) (i : Nat) :
    m.read (address + UInt16.ofNat i) =
      m.bytes.get ⟨(address.toNat + i) % 4096, Nat.mod_lt _ (by decide)⟩ := by
  have hcell : cell (address + UInt16.ofNat i) =
      ⟨(address.toNat + i) % 4096, Nat.mod_lt _ (by decide)⟩ := by
    rw [Fin.ext_iff]
    simp only [cell, UInt16.toNat_add, UInt16.toNat_ofNat']
    omega
  simp only [read, hcell]
  rfl

/-- A byte after a run of bytes was written, by how far around the ring it lies past the first of
them. -/
theorem read_writeAll (m : Memory) (a b : UInt16) {values : List UInt8}
    (h : values.length ≤ 4096) :
    (m.writeAll a values).read b = values.getD ((b - a).toNat % 4096) (m.read b) := by
  induction values generalizing m a with
  | nil => rfl
  | cons value rest ih =>
    rw [List.length_cons] at h
    have ha := a.toNat_lt
    have hb := b.toNat_lt
    have hnext : (b - (a + 1)).toNat = ((b - a).toNat + 65535) % 65536 := by
      simp only [UInt16.toNat_sub, UInt16.toNat_add, UInt16.reduceToNat]
      omega
    have hcell : cell a = cell b ↔ (b - a).toNat % 4096 = 0 := by
      simp only [cell, Fin.mk.injEq, UInt16.toNat_sub]
      omega
    rw [writeAll, ih _ _ (by omega), read_write]
    by_cases hsame : cell a = cell b
    · -- the rest ends before the ring has come round to the byte again
      have hlong : rest.length ≤ (b - (a + 1)).toNat % 4096 := by omega
      rw [if_pos hsame, hcell.1 hsame, List.getD_cons_zero, List.getD_eq_getElem?_getD,
        List.getElem?_eq_none hlong, Option.getD_none]
    · have hsucc : (b - a).toNat % 4096 = (b - (a + 1)).toNat % 4096 + 1 := by omega
      rw [if_neg hsame, hsucc, List.getD_cons_succ]

/-- A run of bytes is the run of its first bytes and the run after them. -/
theorem slice_add (m : Memory) (address : UInt16) (i j : Nat) :
    m.slice address (i + j) = m.slice address i ++ m.slice (address + UInt16.ofNat i) j := by
  simp only [slice, List.range_add, List.map_append, List.map_map, Function.comp_def,
    UInt16.ofNat_add, UInt16.add_assoc]

/-- The first bytes of a run. -/
theorem take_slice (m : Memory) (address : UInt16) {i count : Nat} (h : i ≤ count) :
    (m.slice address count).take i = m.slice address i := by
  obtain ⟨j, rfl⟩ := Nat.exists_eq_add_of_le h
  rw [slice_add, List.take_left' (length_slice m address i)]

/-- Two runs of bytes that lie one after the other are written as one. -/
theorem writeAll_append (m : Memory) (address : UInt16) (first second : List UInt8) :
    m.writeAll address (first ++ second) =
      (m.writeAll address first).writeAll (address + UInt16.ofNat first.length) second := by
  induction first generalizing m address with
  | nil => simp [writeAll]
  | cons value rest ih =>
    have hnext : address + 1 + UInt16.ofNat rest.length =
        address + UInt16.ofNat (rest.length + 1) := by
      rw [Nat.add_comm, UInt16.ofNat_add, UInt16.add_assoc]
      rfl
    rw [List.cons_append, writeAll, ih, hnext, writeAll, List.length_cons]

/-- To write a run of bytes where it is changes nothing. -/
theorem writeAll_slice (m : Memory) (address : UInt16) (count : Nat) :
    m.writeAll address (m.slice address count) = m := by
  induction count with
  | zero => rfl
  | succ count ih =>
    have hlast : m.slice (address + UInt16.ofNat count) 1 =
        [m.read (address + UInt16.ofNat count)] := by
      simp [slice]
    rw [slice_add, writeAll_append, ih, length_slice, hlast, writeAll, writeAll, write_read]

/-- A byte after a run of bytes was written, by its place from where the run begins. -/
theorem read_add_writeAll (m : Memory) (address : UInt16) {values : List UInt8} {j : Nat}
    (h : values.length ≤ 4096) (hj : j < 4096) :
    (m.writeAll address values).read (address + UInt16.ofNat j) =
      values.getD j (m.read (address + UInt16.ofNat j)) := by
  have hplace : (address + UInt16.ofNat j - address).toNat % 4096 = j := by
    have hlt := address.toNat_lt
    simp only [UInt16.toNat_sub, UInt16.toNat_add, UInt16.toNat_ofNat']
    omega
  rw [read_writeAll _ _ _ h, hplace]

/-- A run of bytes that was written is read back, as far as one reads. -/
theorem slice_writeAll (m : Memory) (address : UInt16) {values : List UInt8} {count : Nat}
    (h : values.length ≤ 4096) (hcount : count ≤ values.length) :
    (m.writeAll address values).slice address count = values.take count := by
  refine List.ext_getElem ?_ fun j hj _ => ?_
  · rw [length_slice, List.length_take, Nat.min_eq_left hcount]
  · rw [length_slice] at hj
    rw [getElem_slice, read_add_writeAll _ _ h (by omega), List.getElem_take,
      List.getD_eq_getElem?_getD, List.getElem?_eq_getElem (by omega), Option.getD_some]

/-! ## Loading -/

/-- A byte after loading, by its cell. -/
theorem read_install (m : Memory) (image : Array UInt8) (a : UInt16) :
    (m.install image).read a =
      if (cell a).val < programStart then m.read a
      else image.getD ((cell a).val - programStart) (m.read a) := by
  simp only [read, install, Fin.getElem_fin, Vector.getElem_ofFn]

/-- Two bytes of an image that fits are a word of the memory. -/
theorem word_install (m : Memory) (image : Array UInt8) (i : Nat) (h : i + 1 < image.size)
    (hroom : image.size ≤ programRoom) :
    (m.install image).word (UInt16.ofNat (programStart + i)) =
      image[i].toUInt16 * 256 + image[i + 1].toUInt16 := by
  have hbyte (j : Nat) (hj : j < image.size) (a : UInt16) (ha : a.toNat = programStart + j) :
      (m.install image).read a = image[j] := by
    have hcell : (cell a).val = programStart + j := by
      simp only [cell, ha, programStart, programRoom] at hroom ⊢
      omega
    rw [read_install, hcell, if_neg (Nat.not_lt.2 (Nat.le_add_right _ _)), Nat.add_sub_cancel_left,
      Array.getD_eq_getD_getElem?, Array.getElem?_eq_getElem hj, Option.getD_some]
  simp only [programRoom] at hroom
  rw [word, hbyte i (Nat.lt_of_succ_lt h), hbyte (i + 1) h]
  · simp only [programStart, UInt16.toNat_add, UInt16.toNat_ofNat', UInt16.toNat_one]
    omega
  · simp only [programStart, UInt16.toNat_ofNat']
    omega

end Memory

end Chip8
