import Chip8.Proofs.Bounds.Effect
import Chip8.Proofs.Machine.TransferMode

/-!
# Nothing out of range

Everything that can be done to a machine, also past its commands: images of any size may be put into its
memory, its display drawn on and its transfer mode set (`Request`). On plain storage each request is
carried out with every access and every sum checked (`obey?`). Valid storage passes all the checks and
stays valid, whatever is requested and in whatever order (`valid_storage_stays_in_range`).
-/

namespace Chip8

open Checked

/-- Something to do to a machine or to a part of it. -/
inductive Request where
  /-- Give the machine a command. -/
  | command (command : Machine.Command)
  /-- Put an image into memory, as far as there is room. -/
  | install (image : Array UInt8)
  /-- Draw on the display. -/
  | draw (sprite : Sprite) (x y : UInt8)
  /-- Set the transfer mode. -/
  | setTransfer (mode : TransferMode)

/-- Sprites have fewer than `2 ^ 62` rows. -/
def Request.Fits : Request → Prop
  | draw sprite _ _ => sprite.length < 2 ^ 62
  | _ => True

namespace Machine

/-- Does what is requested. -/
def obey (m : Machine) : Request → Machine
  | .command command => (m.perform command).machine
  | .install image => { m with memory := m.memory.install image }
  | .draw sprite x y => { m with display := (m.display.draw sprite x y).2 }
  | .setTransfer mode => m.setTransfer mode

/-- The machines after each of a list of requests. -/
def trace (m : Machine) : List Request → List Machine
  | [] => []
  | request :: rest => m.obey request :: trace (m.obey request) rest

end Machine

namespace Storage

/-- The key of a code goes down, and an awaited key press sets its register. -/
def press? (s : Storage) (code : UInt8) : Option Storage := do
  let s ← s.setKey? (code &&& 0x0F) true
  if s.waiting then
    let s ← s.setRegister? s.keyRegister (code &&& 0x0F)
    return { s with waiting := false }
  else
    return s

/-- Performs a command. -/
def perform? (s : Storage) : Machine.Command → Option Storage
  | .cycle => s.cycle?.map Attempt.storage
  | .execute operation w => (execute? operation w s).map Attempt.storage
  | .pass => some s.pass
  | .tick =>
    some { s with delay := Machine.countDown s.delay, sound := Machine.countDown s.sound }
  | .press code => s.press? code
  | .release code => s.setKey? code false
  | .load source =>
    match Program.ofSource source with
    | .error _ => some s
    | .ok program => s.install? program.bytes
  | .takeStale => some { s with display := s.display.takeStale.2 }

/-- Does what is requested. -/
def obey? (s : Storage) : Request → Option Storage
  | .command command => s.perform? command
  | .install image => s.install? image
  | .draw sprite x y => do
    let (_, display) ← draw? s.display sprite x y
    return { s with display }
  | .setTransfer mode => some { s with transfer := mode }

/-- The storage after each of a list of requests. -/
def trace? (s : Storage) : List Request → Option (List Storage)
  | [] => some []
  | request :: rest => do
    let next ← s.obey? request
    let later ← trace? next rest
    return next :: later

/-! ## Requests to a machine -/

section Machine

variable (m : Machine)

/-- A press accesses a key that exists and, in a wait, the register that the wait is for. -/
theorem press?_storage (code : UInt8) : m.storage.press? code = some (m.press code).storage := by
  -- the code is masked twice on the way, once for the key and once for the register
  have hmask : code &&& 0x0F = (Key.ofCode code).toByte := by
    rw [Key.toByte_ofCode, ← UInt8.toNat_inj, UInt8.toNat_and, UInt8.toNat_mod]
    exact Nat.and_two_pow_sub_one_eq_mod _ 4
  have hkey : Key.ofCode (code &&& 0x0F) = Key.ofCode code := by
    rw [hmask, Key.toByte_ofCode]
    exact Fin.ext (Nat.mod_mod code.toNat 16)
  rw [press?, setKey?_storage, hkey, hmask, Option.bind_eq_bind, Option.bind_some, Machine.press]
  generalize m.keypad.set (Key.ofCode code) true = keypad
  have hset := setRegister?_storage { m with keypad } m.keyRegister (Key.ofCode code).toByte
  have hwaiting : { m with keypad }.storage.waiting = m.waiting := rfl
  rw [hwaiting]
  by_cases hwait : m.waiting = true
  · rw [if_pos hwait, if_pos hwait]
    exact congrArg (Option.bind · _) hset
  · rw [if_neg hwait, if_neg hwait]
    rfl

/-- A command fails no check on the storage of a machine. -/
theorem perform?_storage (command : Machine.Command) :
    m.storage.perform? command = some (m.perform command).machine.storage := by
  cases command with
  | cycle =>
    rw [perform?, cycle?_storage, Machine.machine_perform_cycle]
    rfl
  | execute operation w =>
    rw [perform?, execute?_storage, Machine.perform, Machine.machine_ofInstruction]
    rfl
  | press code => exact press?_storage m code
  | release code => exact setKey?_storage m code false
  | load source =>
    rw [perform?, Machine.perform, Machine.load]
    cases Program.ofSource source with
    | error reason => rfl
    | ok program => exact install?_storage m program.bytes
  | pass | tick | takeStale => rfl

/-- **One request.** No check fails on the storage of a machine. -/
theorem obey?_storage {request : Request} (h : request.Fits) :
    m.storage.obey? request = some (m.obey request).storage := by
  cases request with
  | command command => exact perform?_storage m command
  | install image => exact install?_storage m image
  | draw sprite x y =>
    have hdraw : draw? m.storage.display sprite x y = some (m.display.draw sprite x y) :=
      draw?_eq m.display (Nat.le_of_lt h) x y
    rw [obey?, hdraw]
    rfl
  | setTransfer mode => rfl

/-- **Any number of requests.** -/
theorem trace?_storage {requests : List Request} (h : ∀ request ∈ requests, request.Fits) :
    m.storage.trace? requests = some ((m.trace requests).map Machine.storage) := by
  induction requests generalizing m with
  | nil => rfl
  | cons request rest ih =>
    obtain ⟨hrequest, hrest⟩ := List.forall_mem_cons.1 h
    rw [trace?, obey?_storage m hrequest, Option.bind_eq_bind, Option.bind_some, ih _ hrest]
    rfl

end Machine

/-! ## All requests -/

/-- Out of range the checks do fail: a return with a stack pointer past the stack, and a key press for a
register that does not exist. -/
theorem obey?_eq_none_of_out_of_range (s : Storage) :
    (16 < s.stackPointer → ∀ w, s.obey? (.command (.execute .ret w)) = none) ∧
      (16 ≤ s.keyRegister → s.waiting = true → ∀ code, s.obey? (.command (.press code)) = none) := by
  constructor
  · intro h w
    have hret : effect? .ret w s = none := by
      -- the slot below a pointer past the end is not there
      have hslot : s.stack[s.stackPointer - 1]? = none := Vector.getElem?_eq_none (by omega)
      have hpointer : ¬s.stackPointer = 0 := by omega
      simp [effect?, hpointer, difference_of_le (show 1 ≤ s.stackPointer by omega), hslot]
    have hrow : DecodingTable.standard.rowOf? .ret = some ⟨.ret, 0x00EE, 0xFFFF⟩ := rfl
    simp [obey?, perform?, execute?, hrow, hret]
  · intro h hwait code
    have hput (value : UInt8) : put s.registers.values s.keyRegister value = none :=
      dif_neg (Nat.not_lt.2 h)
    have hkeys : put s.keypad.down (Key.ofCode (code &&& 0x0F)) true = some _ :=
      put_of_lt _ (Key.ofCode (code &&& 0x0F)).isLt true
    simp [obey?, perform?, press?, setKey?, setRegister?, hwait, hkeys, hput]

/-- **Nothing goes out of range.** The storage of a fresh machine is valid. From valid storage, whatever
is requested, in whatever order and with whatever operands: every register, slot, byte, pixel and key
that is accessed exists, no sum or difference leaves its word, the requests come to what they come to on
the machine, and the storage is valid after each. -/
theorem valid_storage_stays_in_range :
    (∀ (settings : Settings) (entropy : ChaCha.Key),
      (Machine.ofSettings settings entropy).storage.Valid) ∧
    ∀ s : Storage, s.Valid → ∀ requests : List Request, (∀ request ∈ requests, request.Fits) →
      ∃ m : Machine, m.storage = s ∧
        s.trace? requests = some ((m.trace requests).map Machine.storage) ∧
        ∀ t ∈ (m.trace requests).map Machine.storage, t.Valid := by
  refine ⟨fun settings entropy => valid_storage _, ?_⟩
  intro s hs requests hfits
  obtain ⟨m, rfl⟩ := hs.exists_machine
  refine ⟨m, rfl, trace?_storage m hfits, ?_⟩
  rw [List.forall_mem_map]
  exact fun n _ => valid_storage n

/-- A full stack and the last register awaiting a key: calls, returns, a key of any code, operations on
the last register with the index register at the top of its range, an image larger than memory and a
sprite that wraps on both axes. -/
theorem extreme_storage_stays_in_range :
    let s : Storage :=
      { (Machine.fresh .standard (.ofSeed 0)).storage with
        stackPointer := 16, keyRegister := 15, waiting := true, index := 0xFFFF }
    let requests : List Request :=
      [.command (.execute .call ⟨0x2FFF⟩), .command (.execute .ret ⟨0x00EE⟩),
        .command (.press 0xFF), .command (.execute .glyph ⟨0xFF29⟩),
        .command (.execute .storeRun ⟨0xFF55⟩), .setTransfer .indexed,
        .command (.execute .loadRun ⟨0xFF65⟩), .command .cycle,
        .install (Array.replicate 5000 0xAA), .draw [0xFF, 0xFF] 0xFF 0xFF]
    s.Valid ∧ (∀ request ∈ requests, request.Fits) ∧
      ∃ m : Machine, m.storage = s ∧
        s.trace? requests = some ((m.trace requests).map Machine.storage) := by
  intro s requests
  have hvalid : s.Valid := ⟨by decide, by decide⟩
  have hfits : ∀ request ∈ requests, request.Fits := by
    simp only [requests, List.forall_mem_cons, Request.Fits, true_and, List.not_mem_nil,
      false_implies, implies_true, and_true]
    decide
  obtain ⟨m, hm, htrace, -⟩ := valid_storage_stays_in_range.2 s hvalid requests hfits
  exact ⟨hvalid, hfits, m, hm, htrace⟩

end Storage

end Chip8
