import Chip8.Instruction.DecodingTable
import Chip8.Machine.Effect

/-!
# Execution

A cycle fetches the opcode at the program counter, looks it up in a decoding table and carries out
the operation found. While a key is awaited a cycle does nothing. The functions take the table as an
argument, so that what depends on it can be told from what does not; `execute` and `cycle` use the
standard one.
-/

namespace Chip8

/-- What a machine has to say after an instruction. -/
inductive Status where
  /-- The display was cleared or drawn on. -/
  | redraw
  /-- Nothing in particular. -/
  | proceed
  /-- A key is awaited. -/
  | waiting
deriving DecidableEq, Repr

/-- What a machine has to say after an operation. -/
def Operation.status : Operation → Status
  | clear | draw => .redraw
  | awaitKey => .waiting
  | _ => .proceed

namespace Machine

/-- Carries out an operation by the row that a table has for it. That the operation is begun is
logged before anything that it logs itself, also if it fails. -/
def executeWith (table : DecodingTable) (operation : Operation) (w : Opcode) (m : Machine) :
    Attempt Fault Status :=
  match table.rowOf? operation with
  | none => .failed (.unknownOpcode w m.pc) m
  | some row =>
    let attempt := row.operation.effect w m
    { result := attempt.result.map fun _ => operation.status
      machine := attempt.machine
      log := .dispatched m.pc w operation :: attempt.log }

/-- One instruction, decoded by a table; nothing while a key is awaited. -/
def cycleWith (table : DecodingTable) (m : Machine) : Attempt Fault Status :=
  if m.waiting then
    ⟨.ok .waiting, m, []⟩
  else
    match table.decode? m.fetch with
    | none => .failed (.unknownOpcode m.fetch m.pc) m
    | some operation => m.executeWith table operation m.fetch

/-- Carries out an operation with the operands of an opcode. -/
def execute (operation : Operation) (w : Opcode) (m : Machine) : Attempt Fault Status :=
  m.executeWith .standard operation w

/-- One instruction; nothing while a key is awaited. -/
def cycle (m : Machine) : Attempt Fault Status :=
  m.cycleWith .standard

/-! ## The standard table -/

/-- Every operation has a row in the standard table, so that to carry it out is to have its effect,
and to log that it is begun. -/
theorem execute_eq (m : Machine) (operation : Operation) (w : Opcode) :
    m.execute operation w =
      { result := (operation.effect w m).result.map fun _ => operation.status
        machine := (operation.effect w m).machine
        log := .dispatched m.pc w operation :: (operation.effect w m).log } := by
  obtain ⟨row, hrow, hoperation⟩ := DecodingTable.rowOf?_standard operation
  simp only [execute, executeWith, hrow, hoperation]

/-- What is carried out leaves the machine that the effect of the operation leaves. -/
theorem machine_execute (m : Machine) (operation : Operation) (w : Opcode) :
    (m.execute operation w).machine = (operation.effect w m).machine := by
  rw [execute_eq]

/-- While a key is awaited, a cycle leaves everything as it is. -/
theorem cycle_of_waiting {m : Machine} (h : m.waiting = true) :
    m.cycle = ⟨.ok .waiting, m, []⟩ := by
  simp only [cycle, cycleWith, h, if_true]

/-- A cycle fails without a trace at an opcode that stands for no operation. -/
theorem cycle_of_unknown {m : Machine} (h : m.waiting = false)
    (hnone : DecodingTable.standard.decode? m.fetch = none) :
    m.cycle = .failed (.unknownOpcode m.fetch m.pc) m := by
  simp only [cycle, cycleWith, h, hnone, Bool.false_eq_true, if_false]

/-- A cycle carries out the operation that the opcode at the program counter stands for. -/
theorem cycle_of_decode {m : Machine} {operation : Operation} (h : m.waiting = false)
    (hsome : DecodingTable.standard.decode? m.fetch = some operation) :
    m.cycle = m.execute operation m.fetch := by
  simp only [cycle, cycleWith, execute, h, hsome, Bool.false_eq_true, if_false]

end Machine

end Chip8
