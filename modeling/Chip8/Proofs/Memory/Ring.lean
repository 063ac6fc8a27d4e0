import Chip8.Memory
import Mathlib.Data.List.Induction
import Mathlib.Data.Nat.Notation

/-!
# The ring of bytes

Going on from any address, one meets the bytes of memory over and over: `ring` counts them from the
first cell on, without an end. An address of sixteen bits names a byte in the first sixteen rounds, and
stands for every other address in the same place of its round.

* `read_add_eq_ring`, `getElem?_slice`, `toNat_word`: bytes, runs of bytes of any length and words are
  read off the ring.
* `slice_congr`, `writeAll_congr`: addresses of one cell do the same for all runs of bytes.
* `read_writeEach`: after any number of writes a byte is what was written last to its cell, by any of
  the addresses of the cell.
-/

namespace Chip8.Memory

/-- Byte number `n` of the bytes of memory, over and over. -/
def ring (m : Memory) (n : ℕ) : UInt8 :=
  m.bytes.get ⟨n % 4096, Nat.mod_lt _ (by decide)⟩

/-! ## Reading -/

section Read

variable (m : Memory) (address : UInt16)

/-- An offset is added to an address on the ring, even if the sum leaves the address space. -/
theorem read_add_eq_ring (i : ℕ) :
    m.read (address + UInt16.ofNat i) = m.ring (address.toNat + i) :=
  m.read_add address i

/-- An address is a place on the ring. -/
theorem read_eq_ring : m.read address = m.ring address.toNat := by
  have hzero : m.read (address + 0) = m.ring (address.toNat + 0) := m.read_add_eq_ring address 0
  rwa [UInt16.add_zero] at hzero

/-- A run of bytes goes round as often as its length takes it, also where the places in it have more
than sixteen bits. -/
theorem getElem?_slice (count i : ℕ) :
    (m.slice address count)[i]? =
      if i < count then some (m.ring (address.toNat + i)) else none := by
  split
  · next hi =>
    have hplace : i < (m.slice address count).length := by rwa [length_slice]
    rw [List.getElem?_eq_getElem hplace, getElem_slice, read_add_eq_ring]
  · next hi =>
    apply List.getElem?_eq_none
    rw [length_slice]
    exact Nat.le_of_not_lt hi

/-- Two bytes are two places on the ring in a row. -/
theorem slice_two :
    m.slice address 2 = [m.ring address.toNat, m.ring (address.toNat + 1)] := by
  have hbytes : m.slice address 2 =
      [m.read (address + UInt16.ofNat 0), m.read (address + UInt16.ofNat 1)] := rfl
  rw [hbytes, read_add_eq_ring, read_add_eq_ring, Nat.add_zero]

/-- A word has the first of its two bytes on top. -/
theorem toNat_word :
    (m.word address).toNat =
      256 * (m.ring address.toNat).toNat + (m.ring (address.toNat + 1)).toNat := by
  have hsecond : m.read (address + 1) = m.ring (address.toNat + 1) := m.read_add_eq_ring address 1
  have hhigh := (m.ring address.toNat).toNat_lt
  have hlow := (m.ring (address.toNat + 1)).toNat_lt
  rw [word, read_eq_ring, hsecond]
  simp only [UInt16.toNat_add, UInt16.toNat_mul, UInt8.toNat_toUInt16, UInt16.reduceToNat]
  omega

end Read

/-! ## The addresses of one cell -/

/-- Addresses are of one cell if they are equal modulo the size of memory. -/
theorem cell_eq_cell_iff {a b : UInt16} :
    cell a = cell b ↔ a.toNat % 4096 = b.toNat % 4096 := by
  simp only [cell, Fin.mk.injEq]

section Congr

variable {a b : UInt16} (h : a.toNat % 4096 = b.toNat % 4096)
include h

/-- A run of bytes depends on the remainder of its address only. -/
theorem slice_congr (m : Memory) (count : ℕ) : m.slice a count = m.slice b count := by
  refine List.ext_getElem? fun i => ?_
  have hplace : (a.toNat + i) % 4096 = (b.toNat + i) % 4096 := by omega
  simp only [getElem?_slice, ring, hplace]

/-- To write a run of bytes depends on the remainder of its address only. -/
theorem writeAll_congr (m : Memory) (values : List UInt8) :
    m.writeAll a values = m.writeAll b values := by
  induction values generalizing m a b with
  | nil => rfl
  | cons value rest ih =>
    have hnext : (a + 1).toNat % 4096 = (b + 1).toNat % 4096 := by
      simp only [UInt16.toNat_add, UInt16.reduceToNat]
      omega
    rw [writeAll, writeAll, ih hnext]
    simp only [write, cell_eq_cell_iff.2 h]

end Congr

/-! ## Writing -/

/-- Writes bytes one after the other, each to an address of its own. -/
def writeEach (m : Memory) (writes : List (UInt16 × UInt8)) : Memory :=
  writes.foldl (fun m write => m.write write.1 write.2) m

/-- The last one of the bytes written to the cell of an address, by whichever address of the cell. -/
def lastWritten? (writes : List (UInt16 × UInt8)) (address : UInt16) : Option UInt8 :=
  (writes.filter fun write => write.1.toNat % 4096 = address.toNat % 4096).getLast?.map Prod.snd

/-- The last write counts for its own cell, and leaves those before it to all others. -/
theorem lastWritten?_concat (writes : List (UInt16 × UInt8)) (last : UInt16 × UInt8)
    (address : UInt16) :
    lastWritten? (writes ++ [last]) address =
      if last.1.toNat % 4096 = address.toNat % 4096 then some last.2
      else lastWritten? writes address := by
  rw [lastWritten?, List.filter_append]
  split
  · next hsame =>
    rw [List.filter_cons_of_pos (by simpa using hsame), List.filter_nil, List.getLast?_concat,
      Option.map_some]
  · next hother =>
    rw [List.filter_cons_of_neg (by simpa using hother), List.filter_nil, List.append_nil]
    rfl

/-- The last write to a cell is the one that is read. -/
theorem read_writeEach (m : Memory) (writes : List (UInt16 × UInt8)) (address : UInt16) :
    (m.writeEach writes).read address =
      (lastWritten? writes address).getD (m.read address) := by
  -- from the right, as a write is seen in front of all that came before it
  induction writes using List.reverseRecOn with
  | nil => rfl
  | append_singleton writes last ih =>
    have hlast : m.writeEach (writes ++ [last]) = (m.writeEach writes).write last.1 last.2 :=
      List.foldl_append
    rw [hlast, read_write, lastWritten?_concat, ih]
    simp only [cell_eq_cell_iff]
    split <;> rfl

/-- Two writes to the last cell, by different addresses, of which a third address finds the later one. -/
example : lastWritten? [(0xFFF, 1), (0x1FFF, 2), (0x1000, 3)] 0xFFFF = some 2 := by decide

/-- **Memory is a ring.** A run of bytes of any length from any address on is as long as it is asked to
be and is read off the ring, byte by byte; it can be read in two parts, the second one from the address
that the first one has come to, taken modulo 65536. A word is two such bytes, the first one on top. After
any writes, to whatever addresses, a byte is the one that was written last to an address equal to its own
modulo 4096, or the one that was there before if there was none. -/
theorem memory_is_ring (m : Memory) :
    (∀ (address : UInt16) (count : ℕ), (m.slice address count).length = count ∧
      ∀ i, (m.slice address count)[i]? =
        if i < count then some (m.ring (address.toNat + i)) else none) ∧
    (∀ (address : UInt16) (i j : ℕ),
      m.slice address (i + j) =
        m.slice address i ++ m.slice (UInt16.ofNat (address.toNat + i)) j) ∧
    (∀ address : UInt16, ∃ high low, m.slice address 2 = [high, low] ∧
      (m.word address).toNat = 256 * high.toNat + low.toNat) ∧
    (∀ (writes : List (UInt16 × UInt8)) (address : UInt16),
      (m.writeEach writes).read address =
        (lastWritten? writes address).getD (m.ring address.toNat)) := by
  refine ⟨?_, ?_, ?_, ?_⟩
  · intro address count
    exact ⟨m.length_slice address count, m.getElem?_slice address count⟩
  · intro address i j
    rw [slice_add, UInt16.ofNat_add, UInt16.ofNat_toNat]
  · intro address
    exact ⟨_, _, m.slice_two address, m.toNat_word address⟩
  · intro writes address
    rw [read_writeEach, read_eq_ring]

end Chip8.Memory
