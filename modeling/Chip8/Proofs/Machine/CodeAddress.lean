import Chip8.Proofs.Machine.Run

/-!
# Code addresses count modulo 4096

The program counter and the return addresses are whole words, which are never reduced, yet only their
low twelve bits count: instructions are fetched through memory, which is a ring, and everything else
adds to an address or copies it. `masked` takes the upper bits off a machine, off a fault and off a
reply, and to perform a command on the masked machine comes to the same, once masked
(`masked_perform`).

Two machines are `Alike` if they differ in those bits at most; that is to say, if they are equal once
masked (`alike_iff`). Alike machines stay alike and answer alike (`alike_perform`, `alike_run`).
-/

namespace Chip8

/-! ## Low bits -/

/-- To add to an address, its low bits are enough. -/
theorem low_add (a b : UInt16) : (a % 4096 + b) % 4096 = (a + b) % 4096 := by
  rw [← UInt16.toNat_inj]
  simp only [UInt16.toNat_mod, UInt16.toNat_add, UInt16.reduceToNat]
  omega

theorem low_low (a : UInt16) : a % 4096 % 4096 = a % 4096 := by
  rw [← UInt16.toNat_inj]
  simp only [UInt16.toNat_mod, UInt16.reduceToNat]
  omega

namespace Memory

theorem cell_low_add (a b : UInt16) : cell (a % 4096 + b) = cell (a + b) := by
  simp only [cell, Fin.mk.injEq, UInt16.toNat_mod, UInt16.toNat_add, UInt16.reduceToNat]
  omega

/-- A word is read through the low bits of its address, also where its second byte wraps. -/
theorem word_low (m : Memory) (a : UInt16) : m.word (a % 4096) = m.word a := by
  have hfirst : cell (a % 4096) = cell a := by simpa using cell_low_add a 0
  simp only [word, read, hfirst, cell_low_add]

end Memory

/-! ## Taking the upper bits off -/

namespace CallStack

/-- The stack with the low bits of the return addresses only. -/
def masked (s : CallStack) : CallStack :=
  ⟨s.slots.map (· % 4096), s.depth⟩

/-- Each slot of the masked stack has the low bits of the address in it. -/
theorem get_slots_masked (s : CallStack) (i : Fin 16) :
    s.masked.slots.get i = s.slots.get i % 4096 :=
  Vector.getElem_map _ i.isLt

theorem masked_masked (s : CallStack) : s.masked.masked = s.masked := by
  simp only [masked, Vector.map_map, Function.comp_def, low_low]

/-- Addresses that are equal modulo 4096 are pushed alike, onto the masked stack and onto the stack
itself. -/
theorem masked_push? (s : CallStack) {a b : UInt16} (h : a % 4096 = b % 4096) :
    (s.masked.push? a).map masked = (s.push? b).map masked := by
  have hsame : s.masked.depth = s.depth := rfl
  by_cases hdepth : s.depth.val < 16
  · have hslots : (s.masked.slots.set s.depth a).map (· % 4096) =
        (s.slots.set s.depth b).map (· % 4096) := by
      refine Vector.ext fun i hi => ?_
      simp only [masked, Vector.getElem_map, Vector.getElem_set]
      split
      · exact h
      · exact low_low _
    rw [push?, push?, dif_pos hdepth, dif_pos (hsame ▸ hdepth), Option.map_some, Option.map_some]
    exact congrArg some (congrArg (CallStack.mk · _) hslots)
  · rw [push?, push?, dif_neg hdepth, dif_neg (hsame ▸ hdepth)]

/-- The masked stack gives out the low bits of the address that the stack gives out. -/
theorem masked_pop? (s : CallStack) :
    s.masked.pop? = s.pop?.map fun top => (top.1 % 4096, top.2.masked) := by
  by_cases hdepth : s.depth.val = 0
  · simp only [pop?, masked, hdepth, dif_pos, Option.map_none]
  · simp only [pop?, masked, hdepth, dif_neg, Option.map_some, not_false_eq_true,
      Vector.getElem_map]

end CallStack

/-- The fault without the upper bits of the program counter in it. -/
def Fault.masked : Fault → Fault
  | unknownOpcode opcode pc => unknownOpcode opcode (pc % 4096)
  | callStackFull pc => callStackFull (pc % 4096)
  | callStackEmpty pc => callStackEmpty (pc % 4096)
  | windowOverrun first count => windowOverrun first count

namespace Machine

/-- The machine without the upper bits of its code addresses. -/
def masked (m : Machine) : Machine :=
  { m with pc := m.pc % 4096, calls := m.calls.masked }

/-- The reply without the upper bits of the program counter in a fault. -/
def Reply.masked : Reply → Reply
  | refused fault => refused fault.masked
  | reply => reply

/-- Two attempts that are equal once masked. -/
structure Agree {α : Type} (a b : Attempt Fault α) : Prop where
  result : a.result.mapError Fault.masked = b.result.mapError Fault.masked
  machine : a.machine.masked = b.machine.masked

section Agree

variable {α : Type} {a b : Attempt Fault α} (h : Agree a b)
include h

/-- Of attempts that agree, one succeeds if the other does, with the same value. -/
theorem Agree.ok_of_ok {value : α} (hb : b.result = .ok value) : a.result = .ok value := by
  have hresult := h.result
  rw [hb] at hresult
  cases ha : a.result with
  | ok value' =>
    rw [ha] at hresult
    exact hresult
  | error fault =>
    rw [ha] at hresult
    cases hresult

/-- Of attempts that agree, one fails if the other does, with the same fault but for upper bits. -/
theorem Agree.error_of_error {fault : Fault} (hb : b.result = .error fault) :
    ∃ fault', a.result = .error fault' ∧ fault'.masked = fault.masked := by
  have hresult := h.result
  rw [hb] at hresult
  cases ha : a.result with
  | ok value =>
    rw [ha] at hresult
    cases hresult
  | error fault' =>
    rw [ha] at hresult
    exact ⟨fault', rfl, Except.error.inj hresult⟩

end Agree

/-- The same opcode is fetched at the low bits of the program counter. -/
theorem fetch_masked (m : Machine) : m.masked.fetch = m.fetch :=
  congrArg Opcode.mk (m.memory.word_low m.pc)

theorem masked_masked (m : Machine) : m.masked.masked = m.masked := by
  simp only [masked, low_low, CallStack.masked_masked]

theorem mapError_map {α β : Type} (f : α → β) (result : Except Fault α) :
    (result.map f).mapError Fault.masked = (result.mapError Fault.masked).map f := by
  cases result <;> rfl

/-! ## Effects -/

section Effect

variable {s t : Machine}

/-- Wherever two machines go that are equal but for upper bits: it is enough that they go to the same
address modulo 4096. -/
theorem masked_moved (h : s.masked = t.masked) {p q : UInt16} (hpc : p % 4096 = q % 4096) :
    ({ s with pc := p } : Machine).masked = ({ t with pc := q } : Machine).masked := by
  have hrest := congrArg (fun m : Machine => { m with pc := p % 4096 }) h
  simp only [masked, hpc] at hrest ⊢
  exact hrest

/-- One instruction on, machines that are equal but for upper bits are still so. -/
theorem masked_pass (h : s.masked = t.masked) : s.pass.masked = t.pass.masked := by
  have hpc : s.pc % 4096 = t.pc % 4096 := congrArg Machine.pc h
  refine masked_moved h ?_
  rw [← low_add, hpc, low_add]

theorem masked_passNextIf (h : s.masked = t.masked) (condition : Bool) :
    (s.passNextIf condition).masked = (t.passNextIf condition).masked := by
  cases condition with
  | true => exact masked_pass (masked_pass h)
  | false => exact masked_pass h

theorem masked_of_eq (h : s = t.masked) : s.masked = t.masked := by
  rw [h, masked_masked]

/-- To fail where the machine fails agrees with it. -/
theorem agree_failed {α : Type} {fault fault' : Fault} (h : fault.masked = fault'.masked)
    (m : Machine) : Agree (.failed fault m.masked : Attempt Fault α) (.failed fault' m) :=
  ⟨congrArg Except.error h, masked_masked m⟩

end Effect

section Effect

variable (m : Machine)

/-- A call pushes an address that is equal modulo 4096, or finds the stack full as well. -/
theorem agree_call (w : Opcode) :
    Agree (Operation.call.effect w m.masked) (Operation.call.effect w m) := by
  -- the address to come back to is pushed as it is, so that it is the same modulo 4096 only
  have hpush := m.calls.masked_push? (low_add m.pc Opcode.size)
  have hfault : Fault.masked (.callStackFull m.masked.pc) = Fault.masked (.callStackFull m.pc) :=
    congrArg Fault.callStackFull (low_low m.pc)
  cases hcalls : m.calls.push? (m.pc + Opcode.size) with
  | none =>
    have hnone : m.masked.calls.push? (m.masked.pc + Opcode.size) = none :=
      Option.map_eq_none_iff.1 (hpush.trans (congrArg _ hcalls))
    simp only [Operation.effect, pass, hnone, hcalls]
    exact agree_failed hfault m
  | some calls =>
    obtain ⟨calls', hsome, hmasked⟩ :=
      Option.map_eq_some_iff.1 (hpush.trans (congrArg _ hcalls))
    have hsome' : m.masked.calls.push? (m.masked.pc + Opcode.size) = some calls' := hsome
    simp only [Operation.effect, pass, hsome', hcalls, Attempt.done]
    refine ⟨rfl, ?_⟩
    simp only [masked, hmasked]

/-- A return goes to the low bits of where it went, or finds the stack empty as well. -/
theorem agree_ret (w : Opcode) :
    Agree (Operation.ret.effect w m.masked) (Operation.ret.effect w m) := by
  have hpop : m.masked.calls.pop? = _ := m.calls.masked_pop?
  have hfault : Fault.masked (.callStackEmpty m.masked.pc) = Fault.masked (.callStackEmpty m.pc) :=
    congrArg Fault.callStackEmpty (low_low m.pc)
  cases htop : m.calls.pop? with
  | none =>
    rw [htop, Option.map_none] at hpop
    simp only [Operation.effect, hpop, htop]
    exact agree_failed hfault m
  | some top =>
    rw [htop, Option.map_some] at hpop
    simp only [Operation.effect, hpop, htop, Attempt.done]
    refine ⟨rfl, ?_⟩
    simp only [masked, low_low, CallStack.masked_masked]

theorem bringRun_masked (base count : Nat) :
    m.masked.bringRun base count = (m.bringRun base count).masked := by
  rw [bringRun, bringRun, masked, masked]

theorem takeRun_masked (base count : Nat) :
    m.masked.takeRun base count = (m.takeRun base count).masked := by
  rw [takeRun, takeRun, masked, masked]

/-- The indexed mode counts registers, by no code address. -/
theorem agree_transferIndexed (count : Nat) {move : Machine → Nat → Nat → Machine}
    (hmove : ∀ base, move m.masked base count = (move m base count).masked) :
    Agree (m.masked.transferIndexed count move) (m.transferIndexed count move) := by
  by_cases hlong : 16 < m.index.toNat + count
  · have hlong' : 16 < m.masked.index.toNat + count := hlong
    rw [transferIndexed_of_overrun move hlong, transferIndexed_of_overrun move hlong']
    exact agree_failed rfl m
  · have hlong' : ¬16 < m.masked.index.toNat + count := hlong
    rw [transferIndexed_of_fits move hlong, transferIndexed_of_fits move hlong', hmove]
    exact ⟨rfl, masked_pass (masked_of_eq rfl)⟩

/-- The effect of an operation is the same on the masked machine, once masked. -/
theorem agree_effect (operation : Operation) (w : Opcode) :
    Agree (operation.effect w m.masked) (operation.effect w m) := by
  have htransfer : m.masked.transfer = m.transfer := rfl
  cases operation with
  | skipIfByte | skipUnlessByte | skipIfSame | skipUnlessSame | skipIfKey | skipUnlessKey =>
    exact ⟨rfl, masked_passNextIf (masked_of_eq rfl) _⟩
  | jump | jumpOffset => exact ⟨rfl, masked_moved (masked_of_eq rfl) rfl⟩
  | call => exact agree_call m w
  | ret => exact agree_ret m w
  | storeRun =>
    cases hmode : m.transfer with
    | indexed =>
      simp only [Operation.effect, htransfer, hmode]
      exact agree_transferIndexed m _ fun base => bringRun_masked m base _
    | standard =>
      simp only [Operation.effect, htransfer, hmode]
      exact ⟨rfl, masked_pass (masked_of_eq (takeRun_masked m 0 _))⟩
  | loadRun =>
    cases hmode : m.transfer with
    | indexed =>
      simp only [Operation.effect, htransfer, hmode]
      exact agree_transferIndexed m _ fun base => takeRun_masked m base _
    | standard =>
      simp only [Operation.effect, htransfer, hmode]
      exact ⟨rfl, masked_pass (masked_of_eq (bringRun_masked m 0 _))⟩
  -- the others go past their instruction, and neither look at a code address nor touch one
  | _ => exact ⟨rfl, masked_pass (masked_of_eq rfl)⟩

theorem agree_execute (operation : Operation) (w : Opcode) :
    Agree (m.masked.execute operation w) (m.execute operation w) := by
  obtain ⟨hresult, hmachine⟩ := agree_effect m operation w
  rw [execute_eq, execute_eq]
  refine ⟨?_, hmachine⟩
  rw [mapError_map, mapError_map, hresult]

/-- A cycle comes to the same on the masked machine, whether it fetches something or not. -/
theorem agree_cycle : Agree m.masked.cycle m.cycle := by
  cases hwait : m.waiting with
  | true =>
    have hwait' : m.masked.waiting = true := hwait
    rw [cycle_of_waiting hwait, cycle_of_waiting hwait']
    exact ⟨rfl, masked_masked m⟩
  | false =>
    have hwait' : m.masked.waiting = false := hwait
    -- the same opcode is fetched, so that both cycles come to the same row, or to none
    have hdecode' : DecodingTable.standard.decode? m.masked.fetch = _ :=
      congrArg DecodingTable.standard.decode? m.fetch_masked
    cases hdecode : DecodingTable.standard.decode? m.fetch with
    | none =>
      rw [cycle_of_unknown hwait hdecode, cycle_of_unknown hwait' (hdecode'.trans hdecode)]
      have hfault : Fault.masked (.unknownOpcode m.masked.fetch m.masked.pc) =
          Fault.masked (.unknownOpcode m.fetch m.pc) := by
        rw [fetch_masked]
        exact congrArg (Fault.unknownOpcode m.fetch) (low_low m.pc)
      exact agree_failed hfault m
    | some operation =>
      rw [cycle_of_decode hwait hdecode, cycle_of_decode hwait' (hdecode'.trans hdecode),
        fetch_masked]
      exact agree_execute m operation m.fetch

end Effect

/-! ## Commands -/

/-- What is left of a response without the upper bits of code addresses. The log is left out: it
cites them in full. -/
def Response.masked (response : Response) : Reply × Machine :=
  (response.reply.masked, response.machine.masked)

/-- Attempts that agree make responses that are equal once masked. -/
theorem masked_ofInstruction {a b : Attempt Fault Status} (h : Agree a b) :
    (Response.ofInstruction a).masked = (Response.ofInstruction b).masked := by
  rw [Response.ofInstruction, Response.ofInstruction]
  cases hb : b.result with
  | ok status =>
    have ha : a.result = .ok status := h.ok_of_ok hb
    simp only [ha, Response.masked, h.machine]
  | error fault =>
    obtain ⟨fault', ha, hfault⟩ := h.error_of_error hb
    simp only [ha, Response.masked, Reply.masked, hfault, h.machine]

/-- A key press looks at no code address. -/
theorem press_masked (m : Machine) (code : UInt8) : m.masked.press code = (m.press code).masked := by
  rw [press_eq, press_eq]
  rfl

/-- **One command.** To perform a command on the masked machine comes to the same. -/
theorem masked_perform (m : Machine) (command : Command) :
    (m.masked.perform command).masked = (m.perform command).masked := by
  cases command with
  | cycle => exact masked_ofInstruction (agree_cycle m)
  | execute operation w => exact masked_ofInstruction (agree_execute m operation w)
  | pass => exact congrArg (Prod.mk _) (masked_pass (masked_of_eq rfl))
  | press code => exact congrArg (Prod.mk _) (masked_of_eq (press_masked m code))
  | load source =>
    simp only [perform, load]
    cases Program.ofSource source with
    | ok program =>
      have hinstall : m.masked.install program = (m.install program).masked := by
        rw [install, install, masked, masked]
      exact congrArg (Prod.mk _) (masked_of_eq hinstall)
    | error reason => exact congrArg (Prod.mk _) (masked_masked m)
  | tick | release | takeStale => exact congrArg (Prod.mk _) (masked_of_eq rfl)

/-! ## Alike machines -/

/-- Machines that differ in the upper bits of code addresses at most. -/
structure Alike (m n : Machine) : Prop where
  pc : m.pc % 4096 = n.pc % 4096
  slots : ∀ i : Fin 16, m.calls.slots.get i % 4096 = n.calls.slots.get i % 4096
  depth : m.calls.depth = n.calls.depth
  rest : n = { m with pc := n.pc, calls := n.calls }

/-- Machines are alike if they are the same once masked. -/
theorem alike_iff {m n : Machine} : m.Alike n ↔ m.masked = n.masked := by
  constructor
  · rintro ⟨hpc, hslots, hdepth, hrest⟩
    have hcalls : m.calls.masked = n.calls.masked := by
      rw [CallStack.masked, CallStack.masked, hdepth]
      refine congrArg (CallStack.mk · _) (Vector.ext fun i hi => ?_)
      rw [Vector.getElem_map, Vector.getElem_map]
      exact hslots ⟨i, hi⟩
    rw [hrest, masked, masked]
    simp only [hpc, hcalls]
  · intro h
    have hcalls : m.calls.masked = n.calls.masked := congrArg Machine.calls h
    have hdepth : m.calls.masked.depth = n.calls.masked.depth := congrArg CallStack.depth hcalls
    refine ⟨congrArg Machine.pc h, fun i => ?_, hdepth, ?_⟩
    · have hslot := congrArg (fun calls : CallStack => calls.slots.get i) hcalls
      simpa only [CallStack.get_slots_masked] using hslot
    -- the code addresses are all that masking has changed, and they are put back here
    · exact congrArg (fun k : Machine => { k with pc := n.pc, calls := n.calls }) h.symm

section Alike

variable {m n : Machine} (h : m.Alike n)
include h

/-- **One command.** Alike machines answer alike and stay alike. -/
theorem alike_perform (command : Command) :
    (m.perform command).reply.masked = (n.perform command).reply.masked ∧
      (m.perform command).machine.Alike (n.perform command).machine := by
  have hmasked : (m.perform command).masked = (n.perform command).masked := by
    rw [← masked_perform, alike_iff.1 h, masked_perform]
  exact ⟨congrArg Prod.fst hmasked, alike_iff.2 (congrArg Prod.snd hmasked)⟩

end Alike

/-- Where a status is reported, upper bits make no difference. -/
theorem getElem?_masked_iff (l : List Reply) (i : Nat) (status : Status) :
    (l.map Reply.masked)[i]? = some (.status status) ↔ l[i]? = some (.status status) := by
  have hmasked (reply : Reply) : reply.masked = .status status ↔ reply = .status status := by
    cases reply <;> simp [Reply.masked]
  rw [List.getElem?_map]
  cases l[i]? <;> simp [hmasked]

/-- **A whole run.** Alike machines answer alike and stay alike. -/
theorem alike_run {m n : Machine} (h : m.Alike n) (commands : List Command) :
    (m.replies commands).map Reply.masked = (n.replies commands).map Reply.masked ∧
      (m.run commands).Alike (n.run commands) := by
  induction commands generalizing m n with
  | nil => exact ⟨rfl, h⟩
  | cons command rest ih =>
    obtain ⟨hreply, hmachine⟩ := alike_perform h command
    obtain ⟨hreplies, hrun⟩ := ih hmachine
    simp only [replies, List.map_cons, hreply, hreplies]
    exact ⟨trivial, hrun⟩

end Machine

end Chip8
