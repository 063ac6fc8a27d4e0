import Chip8.Proofs.Machine.Refusal
import Mathlib.Data.List.Nodup

/-!
# The order of the decoding table

A table is searched for the first row that covers an opcode. Two rows of the standard table that cover
a common opcode have templates that agree under both masks (`template_and_mask_of_covers`), and the only
such pairs are the row of `routine` with those of `clear` and `ret` (`eq_of_mayPrecede`). So the rows
found are the same in every order of the table that keeps `routine` below these two
(`match?_eq_standard`), and so is everything that a machine does with the table.
-/

namespace Chip8

/-- Whether a row may stand above another one: that of `routine` must not stand above those of `clear`
and `ret`, whose opcodes it covers as well. -/
def Row.MayPrecede (upper lower : Row) : Prop :=
  upper.operation = .routine → lower.operation ≠ .clear ∧ lower.operation ≠ .ret

instance : DecidableRel Row.MayPrecede :=
  fun _ _ => inferInstanceAs (Decidable (_ → _))

namespace DecodingTable

/-- Rows that cover a common opcode have templates that agree under both masks. -/
theorem template_and_mask_of_covers {upper lower : Row} {w : Opcode} (hupper : upper.covers w = true)
    (hlower : lower.covers w = true) :
    upper.template &&& lower.mask = lower.template &&& upper.mask := by
  have hu : w.word &&& upper.mask = upper.template := beq_iff_eq.1 hupper
  have hl : w.word &&& lower.mask = lower.template := beq_iff_eq.1 hlower
  calc upper.template &&& lower.mask
      = w.word &&& upper.mask &&& lower.mask := by rw [hu]
    _ = w.word &&& lower.mask &&& upper.mask := by
      rw [UInt16.and_assoc, UInt16.and_comm upper.mask, ← UInt16.and_assoc]
    _ = lower.template &&& upper.mask := by rw [hl]

/-- Among all pairs of rows, only those of `routine` with `clear` and with `ret` have templates that
agree under both masks. -/
theorem eq_of_template_and_mask :
    ∀ upper ∈ standard, ∀ lower ∈ standard,
      upper.template &&& lower.mask = lower.template &&& upper.mask →
      upper.MayPrecede lower → lower.MayPrecede upper → upper = lower := by
  decide +kernel

/-- Of two different rows that cover a common opcode, only one may precede the other. -/
theorem eq_of_mayPrecede {upper lower : Row} {w : Opcode} (hu : upper ∈ standard)
    (hl : lower ∈ standard) (hupper : upper.covers w = true) (hlower : lower.covers w = true)
    (hul : upper.MayPrecede lower) (hlu : lower.MayPrecede upper) : upper = lower :=
  eq_of_template_and_mask upper hu lower hl (template_and_mask_of_covers hupper hlower) hul hlu

/-- The standard table is in an order that is allowed. -/
theorem pairwise_mayPrecede_standard : standard.Pairwise Row.MayPrecede := by
  decide

/-- No operation has two rows. -/
theorem nodup_map_operation_standard : (standard.map Row.operation).Nodup := by
  decide

section Reordered

variable {table : DecodingTable} (hperm : table.Perm standard)
include hperm

/-! ## Both searches -/

/-- The rows that cover an opcode stand in the same order in both tables. -/
theorem filter_covers_eq_standard (horder : table.Pairwise Row.MayPrecede) (w : Opcode) :
    table.filter (·.covers w) = standard.filter (·.covers w) := by
  -- two arrangements of the same rows, in each of which any two rows are in an allowed order
  refine List.Perm.eq_of_pairwise ?_ (horder.filter _) (pairwise_mayPrecede_standard.filter _)
    (hperm.filter _)
  intro upper lower hupper hlower hul hlu
  obtain ⟨hu, hupper⟩ := List.mem_filter.1 hupper
  obtain ⟨hl, hlower⟩ := List.mem_filter.1 hlower
  exact eq_of_mayPrecede (hperm.mem_iff.1 hu) hl hupper hlower hul hlu

/-- The first row that covers an opcode is the same in both tables. -/
theorem match?_eq_standard (horder : table.Pairwise Row.MayPrecede) (w : Opcode) :
    table.match? w = standard.match? w := by
  rw [match?, match?, ← List.head?_filter, ← List.head?_filter,
    filter_covers_eq_standard hperm horder]

/-- Every row is the one found for its operation. -/
theorem rowOf?_of_mem {row : Row} (hrow : row ∈ table) :
    table.rowOf? row.operation = some row := by
  cases hfind : table.rowOf? row.operation with
  | none => simpa using List.find?_eq_none.1 hfind row hrow
  | some found =>
    -- the row that is found has the same operation, and no other row has
    have hnodup : (table.map Row.operation).Nodup :=
      (hperm.map _).nodup_iff.2 nodup_map_operation_standard
    have hsame : found.operation = row.operation := by simpa using List.find?_some hfind
    rw [List.inj_on_of_nodup_map hnodup (List.mem_of_find?_eq_some hfind) hrow hsame]

/-- The row of an operation is the same in both tables, in whatever order they are. -/
theorem rowOf?_eq_standard (operation : Operation) :
    table.rowOf? operation = standard.rowOf? operation := by
  obtain ⟨row, hrow, rfl⟩ := rowOf?_standard operation
  rw [hrow]
  exact rowOf?_of_mem hperm (hperm.mem_iff.2 (List.mem_of_find?_eq_some hrow))

end Reordered

end DecodingTable

/-! ## Machines -/

namespace Machine

open DecodingTable

/-- No operation is refused for an unknown opcode. -/
theorem result_execute_ne_unknownOpcode (m : Machine) (operation : Operation) (w opcode : Opcode)
    (pc : UInt16) : (m.execute operation w).result ≠ .error (.unknownOpcode opcode pc) := by
  rw [ne_eq, execute_error_iff, refusal?_eq_some_iff]
  simp only [reduceCtorEq, and_false, or_self, not_false_eq_true]

section Reordered

variable {table : DecodingTable} (hperm : table.Perm standard)
include hperm

/-- To carry out an operation by the other table comes to the same. -/
theorem executeWith_eq_execute (m : Machine) (operation : Operation) (w : Opcode) :
    m.executeWith table operation w = m.execute operation w := by
  rw [execute, executeWith, executeWith, rowOf?_eq_standard hperm]

/-- A cycle by the other table comes to the same. -/
theorem cycleWith_eq_cycle (horder : table.Pairwise Row.MayPrecede) (m : Machine) :
    m.cycleWith table = m.cycle := by
  simp only [cycle, cycleWith, decode?, match?_eq_standard hperm horder,
    executeWith_eq_execute hperm, execute]

end Reordered

/-- **The order of the table does not matter.** Take the rows of the standard table in any order that
keeps `routine` below `clear` and `ret`. An opcode is covered first by the same row, and that row is
the one found for its own operation, so that the two searches cannot drift apart. A cycle by the table
comes to the same in every respect; an opcode that is covered is always carried out as the row that
covers it says, with the operands of the opcode; and there is a row for every operation, so that none is
ever refused for an unknown opcode. -/
theorem dispatch_independent_of_order (table : DecodingTable) (hperm : table.Perm standard)
    (horder : table.Pairwise Row.MayPrecede) :
    (∀ w, table.match? w = standard.match? w) ∧
    (∀ w row, table.match? w = some row →
      table.rowOf? row.operation = some row ∧ standard.rowOf? row.operation = some row) ∧
    (∀ m : Machine, m.cycleWith table = m.cycle) ∧
    (∀ (m : Machine) w row, table.match? w = some row →
      m.executeWith table row.operation w =
        { result := (row.operation.effect w m).result.map fun _ => row.operation.status
          machine := (row.operation.effect w m).machine
          log := .dispatched m.pc w row.operation :: (row.operation.effect w m).log }) ∧
    (∀ operation, ∃ row, table.rowOf? operation = some row ∧ row.operation = operation) ∧
    (∀ (m : Machine) operation w opcode pc,
      (m.executeWith table operation w).result ≠ .error (.unknownOpcode opcode pc)) := by
  refine ⟨match?_eq_standard hperm horder, ?_, cycleWith_eq_cycle hperm horder, ?_, ?_, ?_⟩
  · intro w row h
    have hrow : table.rowOf? row.operation = some row :=
      rowOf?_of_mem hperm (List.mem_of_find?_eq_some h)
    exact ⟨hrow, rowOf?_eq_standard hperm _ ▸ hrow⟩
  · intro m w row _
    rw [executeWith_eq_execute hperm, execute_eq]
  · intro operation
    rw [rowOf?_eq_standard hperm]
    exact rowOf?_standard operation
  · intro m operation w opcode pc
    rw [executeWith_eq_execute hperm]
    exact result_execute_ne_unknownOpcode m operation w opcode pc

/-- The table turned round, but for `routine`: a blank display and a call of machine code are told apart
as before, and a cycle is the same. -/
theorem dispatch_by_reversed_table :
    let routine : Row := ⟨.routine, 0x0000, 0xF000⟩
    let table : DecodingTable := standard.dropLast.reverse ++ [routine]
    table.Perm standard ∧ table.Pairwise Row.MayPrecede ∧ table ≠ standard ∧
      table.match? ⟨0x00E0⟩ = some ⟨.clear, 0x00E0, 0xFFFF⟩ ∧
      table.match? ⟨0x00E1⟩ = some routine ∧ table.match? ⟨0x5AB1⟩ = none ∧
      ∀ m : Machine, m.cycleWith table = m.cycle := by
  intro routine table
  have hperm : table.Perm standard := (List.reverse_perm _).append_right _
  have horder : table.Pairwise Row.MayPrecede := by decide
  obtain ⟨hmatch, -, hcycle, -⟩ := dispatch_independent_of_order table hperm horder
  refine ⟨hperm, horder, by decide, (hmatch _).trans ?_, (hmatch _).trans ?_, (hmatch _).trans ?_,
    hcycle⟩
  · decide
  · decide
  · decide

/-- With `routine` on top, no opcode blanks the display. -/
example : match? standard.reverse ⟨0x00E0⟩ = some ⟨.routine, 0x0000, 0xF000⟩ := by decide

end Machine

end Chip8
