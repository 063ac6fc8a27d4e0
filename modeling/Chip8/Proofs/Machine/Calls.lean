import Chip8.Proofs.Machine.Frame
import Chip8.Proofs.Machine.Run
import Mathlib.Data.List.Induction

/-!
# Calls and returns over runs

What the call stack of a machine means is a book in which every completed call enters the address to
come back to, and every completed return strikes out the youngest entry. The book is kept beside the
machine (`enter`, `outstanding`): it looks at what a run completes and never at the stack.

* `toList_calls_perform`, `toList_calls_run`: the stack is the book, after a command and after a run.
* `bookAfter_of_unmatched`: as long as a call is not matched, its entry and those below it stay.
* `call_stack_refines_book`: the stack of a machine that starts with no call outstanding, with the
  exact conditions for failure and the address that a matching return goes to.
-/

namespace Chip8.Machine

/-! ## The book -/

/-- What a command does to the book: a call that is completed enters the address after it, a return
that is completed strikes out the youngest entry. -/
def enter (m : Machine) (command : Command) (book : List UInt16) : List UInt16 :=
  match command.completed? m with
  | some (.call, _) => book ++ [m.pc + Opcode.size]
  | some (.ret, _) => book.dropLast
  | _ => book

/-- The book after a run, when it was `book` before. -/
def bookAfter (m : Machine) (book : List UInt16) : List Command → List UInt16
  | [] => book
  | command :: rest => bookAfter (m.perform command).machine (m.enter command book) rest

/-- The return addresses of the calls that a run has completed and not returned from, oldest
first. -/
def outstanding (m : Machine) (commands : List Command) : List UInt16 :=
  m.bookAfter [] commands

/-- The book is kept through one part of a run after the other. -/
theorem bookAfter_append (m : Machine) (book : List UInt16) (first second : List Command) :
    m.bookAfter book (first ++ second) =
      (m.run first).bookAfter (m.bookAfter book first) second := by
  induction first generalizing m book with
  | nil => rfl
  | cons command rest ih => exact ih (m.perform command).machine (m.enter command book)

/-- The last command makes its entry in the book that the others have left. -/
theorem bookAfter_concat (m : Machine) (book : List UInt16) (commands : List Command)
    (last : Command) :
    m.bookAfter book (commands ++ [last]) =
      (m.run commands).enter last (m.bookAfter book commands) := by
  rw [bookAfter_append]
  rfl

section Enter

variable {m : Machine} {command : Command} {w : Opcode}

/-- What a command completes is a call, a return, or something else or nothing. -/
theorem call_or_ret_or_other (m : Machine) (command : Command) :
    (∃ w, command.completed? m = some (.call, w)) ∨ (∃ w, command.completed? m = some (.ret, w)) ∨
      ∀ instruction ∈ command.completed? m, instruction.1 ≠ .call ∧ instruction.1 ≠ .ret := by
  by_cases hcall : ∃ w, command.completed? m = some (.call, w)
  · exact Or.inl hcall
  by_cases hret : ∃ w, command.completed? m = some (.ret, w)
  · exact Or.inr (Or.inl hret)
  refine Or.inr (Or.inr fun ⟨operation, w⟩ hcompleted => ⟨?_, ?_⟩)
  · rintro rfl
    exact hcall ⟨w, hcompleted⟩
  · rintro rfl
    exact hret ⟨w, hcompleted⟩

/-- A completed call enters the address after it. -/
theorem enter_of_call (h : command.completed? m = some (.call, w)) (book : List UInt16) :
    m.enter command book = book ++ [m.pc + Opcode.size] := by
  rw [enter, h]

/-- A completed return strikes out the youngest entry. -/
theorem enter_of_ret (h : command.completed? m = some (.ret, w)) (book : List UInt16) :
    m.enter command book = book.dropLast := by
  rw [enter, h]

/-- Everything else leaves the book alone, refused calls and returns among it. -/
theorem enter_of_other
    (h : ∀ instruction ∈ command.completed? m, instruction.1 ≠ .call ∧ instruction.1 ≠ .ret)
    (book : List UInt16) : m.enter command book = book := by
  rw [enter]
  split
  · next w hcompleted => exact absurd rfl (h _ hcompleted).1
  · next w hcompleted => exact absurd rfl (h _ hcompleted).2
  · rfl

end Enter

/-! ## The stack keeps the book -/

section Perform

variable {m : Machine} {command : Command} {operation : Operation} {w : Opcode}

/-- A completed call pushes the address after it. -/
theorem toList_calls_of_call (h : command.completed? m = some (.call, w)) :
    (m.perform command).machine.calls.toList = m.calls.toList ++ [m.pc + Opcode.size] := by
  obtain ⟨hinstruction, hnone⟩ := completed?_eq_some_iff.1 h
  rw [machine_perform_of_instruction hinstruction]
  obtain ⟨calls, hpush⟩ := exists_push?_of_unrefused hnone m.pass.pc
  simp only [Operation.effect, hpush, Attempt.done]
  exact CallStack.toList_of_push? hpush

/-- A completed return pops an address and goes there. -/
theorem toList_calls_of_ret (h : command.completed? m = some (.ret, w)) :
    m.calls.toList =
      (m.perform command).machine.calls.toList ++ [(m.perform command).machine.pc] := by
  obtain ⟨hinstruction, hnone⟩ := completed?_eq_some_iff.1 h
  rw [machine_perform_of_instruction hinstruction]
  obtain ⟨top, hpop⟩ := exists_pop?_of_unrefused hnone
  simp only [Operation.effect, hpop, Attempt.done]
  exact CallStack.toList_of_pop? hpop

/-- What completes neither a call nor a return leaves the call stack alone, refused calls and returns
among it. -/
theorem calls_perform_of_other
    (h : ∀ instruction ∈ command.completed? m, instruction.1 ≠ .call ∧ instruction.1 ≠ .ret) :
    (m.perform command).machine.calls = m.calls := by
  cases hcompleted : command.completed? m with
  | none => exact (untouched_perform hcompleted).calls
  | some instruction =>
    obtain ⟨hcall, hret⟩ := h instruction hcompleted
    rw [machine_perform_of_completed hcompleted]
    exact calls_effect hcall hret _ m

/-- **One command.** If the stack is the book before a command, it is the book after it. -/
theorem toList_calls_perform (m : Machine) (command : Command) :
    (m.perform command).machine.calls.toList = m.enter command m.calls.toList := by
  rcases call_or_ret_or_other m command with ⟨w, h⟩ | ⟨w, h⟩ | h
  · rw [enter_of_call h, toList_calls_of_call h]
  · rw [enter_of_ret h, toList_calls_of_ret h, List.dropLast_concat]
  · rw [enter_of_other h, calls_perform_of_other h]

end Perform

/-- **A whole run.** If the stack is the book before a run, it is the book after it. -/
theorem toList_calls_run (m : Machine) (commands : List Command) :
    (m.run commands).calls.toList = m.bookAfter m.calls.toList commands := by
  induction commands generalizing m with
  | nil => rfl
  | cons command rest ih => rw [run_cons, ih, toList_calls_perform, bookAfter]

/-- A run completes as many calls as returns and new entries of the stack together. -/
theorem countP_completed_call (m : Machine) (commands : List Command) :
    (m.completed commands).countP (·.1 = .call) + m.calls.toList.length =
      (m.completed commands).countP (·.1 = .ret) + (m.run commands).calls.toList.length := by
  induction commands generalizing m with
  | nil => rfl
  | cons command rest ih =>
    have hrest := ih (m.perform command).machine
    rw [completed, List.countP_append, List.countP_append, run_cons]
    rcases call_or_ret_or_other m command with ⟨w, h⟩ | ⟨w, h⟩ | h
    · rw [toList_calls_of_call h, List.length_append, List.length_singleton] at hrest
      simp only [h, Option.toList_some, List.countP_singleton, decide_true, if_true, reduceCtorEq,
        decide_false, Bool.false_eq_true, if_false]
      omega
    · rw [toList_calls_of_ret h, List.length_append, List.length_singleton]
      simp only [h, Option.toList_some, List.countP_singleton, decide_true, if_true, reduceCtorEq,
        decide_false, Bool.false_eq_true, if_false]
      omega
    · have hcall : (command.completed? m).toList.countP (·.1 = .call) = 0 :=
        List.countP_eq_zero.2 fun i hi => by simpa using (h i (Option.mem_toList.1 hi)).1
      have hret : (command.completed? m).toList.countP (·.1 = .ret) = 0 :=
        List.countP_eq_zero.2 fun i hi => by simpa using (h i (Option.mem_toList.1 hi)).2
      rw [calls_perform_of_other h] at hrest
      omega

/-! ## Matching returns -/

/-- While a call is not matched, its entry and those below it stay in the book: the entries that come
and go in the meantime are above. -/
theorem bookAfter_of_unmatched (m : Machine) (book : List UInt16) (address : UInt16)
    (inner : List Command)
    (h : ∀ earlier ret w, earlier ++ [ret] <+: inner →
      ret.completed? (m.run earlier) = some (.ret, w) →
      (m.bookAfter (book ++ [address]) (earlier ++ [ret])).length ≠ book.length) :
    ∃ younger, m.bookAfter (book ++ [address]) inner = book ++ [address] ++ younger := by
  -- from the right, so that the commands before the last one are unmatched as well
  induction inner using List.reverseRecOn with
  | nil => exact ⟨[], (List.append_nil _).symm⟩
  | append_singleton inner last ih =>
    obtain ⟨younger, hbook⟩ := ih fun earlier ret w hearlier =>
      h earlier ret w (hearlier.trans (List.prefix_append inner [last]))
    have hlast := fun w => h inner last w (List.prefix_refl _)
    rw [bookAfter_concat, hbook] at hlast ⊢
    rcases call_or_ret_or_other (m.run inner) last with ⟨w, hcompleted⟩ | ⟨w, hcompleted⟩ | hother
    · rw [enter_of_call hcompleted, List.append_assoc]
      exact ⟨_, rfl⟩
    · -- a return that struck out the entry of the call itself would have matched it
      have hyounger : younger ≠ [] := by
        rintro rfl
        refine hlast w hcompleted ?_
        rw [enter_of_ret hcompleted, List.append_nil, List.dropLast_concat]
      rw [enter_of_ret hcompleted, List.dropLast_append_of_ne_nil hyounger]
      exact ⟨younger.dropLast, rfl⟩
    · rw [enter_of_other hother]
      exact ⟨younger, rfl⟩

/-- In a run that performs `before`, a call, `inner` and then `back`: the call is completed, and
`back` is the first return after it that leaves as many calls outstanding as there were before it. -/
structure IsMatchingReturn (m : Machine) (before : List Command) (call : Command)
    (inner : List Command) (back : Command) : Prop where
  called : ∃ w, call.completed? (m.run before) = some (.call, w)
  returned : ∃ w, back.completed? (m.run (before ++ call :: inner)) = some (.ret, w)
  level : (m.outstanding (before ++ call :: inner ++ [back])).length = (m.outstanding before).length
  first : ∀ earlier ret w, earlier ++ [ret] <+: inner →
    ret.completed? (m.run (before ++ call :: earlier)) = some (.ret, w) →
    (m.outstanding (before ++ call :: earlier ++ [ret])).length ≠ (m.outstanding before).length

section Matching

variable {m : Machine}

/-- With no call outstanding at the start, the stack is the book that starts empty. -/
theorem toList_calls_run_of_empty (hempty : m.calls.depth = 0) (commands : List Command) :
    (m.run commands).calls.toList = m.outstanding commands := by
  have hnil : m.calls.toList = [] := by
    rw [← List.length_eq_zero_iff, CallStack.length_toList, hempty]
    rfl
  rw [toList_calls_run, outstanding, hnil]

/-- A run with a call in it goes on from the machine after the call. -/
theorem run_call_cons (m : Machine) (before : List Command) (call : Command) (rest : List Command) :
    m.run (before ++ call :: rest) = ((m.run before).perform call).machine.run rest := by
  rw [run_append, run_cons]

/-- From a call on, the book begins with what was outstanding, and the address after the call. -/
theorem outstanding_call_cons {before : List Command} {call : Command} {w : Opcode}
    (h : call.completed? (m.run before) = some (.call, w)) (rest : List Command) :
    m.outstanding (before ++ call :: rest) =
      ((m.run before).perform call).machine.bookAfter
        (m.outstanding before ++ [(m.run before).pc + Opcode.size]) rest := by
  rw [outstanding, bookAfter_append, bookAfter, enter_of_call h, outstanding]

/-- A matching return goes to the address after its call. -/
theorem pc_of_isMatchingReturn {before inner : List Command} {call back : Command}
    (hempty : m.calls.depth = 0) (h : IsMatchingReturn m before call inner back) :
    (m.run (before ++ call :: inner ++ [back])).pc = (m.run before).pc + Opcode.size := by
  obtain ⟨⟨w, hcall⟩, ⟨v, hret⟩, hlevel, hfirst⟩ := h
  have hstack := toList_calls_run_of_empty hempty (before ++ call :: inner)
  rw [run_concat]
  simp only [List.append_assoc, List.cons_append, run_call_cons, outstanding_call_cons hcall]
    at hret hlevel hfirst hstack ⊢
  -- all that matters of the run so far is the machine after the call, and the book before it
  generalize ((m.run before).perform call).machine = s at *
  generalize m.outstanding before = book at *
  generalize (m.run before).pc + Opcode.size = address at *
  obtain ⟨younger, hyounger⟩ := bookAfter_of_unmatched s book address inner hfirst
  rw [bookAfter_concat, enter_of_ret hret, hyounger, List.length_dropLast] at hlevel
  -- the return leaves as many entries as there were before the call, so that nothing younger was left
  have hnil : younger = [] := by
    simp only [List.length_append, List.length_singleton] at hlevel
    exact List.length_eq_zero_iff.1 (by omega)
  rw [hyounger, hnil, List.append_nil, toList_calls_of_ret hret] at hstack
  exact List.singleton_inj.1 (List.append_inj_right' hstack rfl)

end Matching

/-! ## The stack refines the book -/

/-- A call that a command sets out to carry out is refused just when sixteen are outstanding. -/
theorem call_refused_iff {m : Machine} {command : Command} {w : Opcode}
    (h : command.instruction? m = some (.call, w)) :
    (∃ fault, (m.perform command).reply = .refused fault) ↔ m.calls.toList.length = 16 := by
  simp only [reply_refused_iff h, refusal?_eq_some_iff, reduceCtorEq, false_and, true_and, false_or,
    or_false, or_self, CallStack.length_toList]
  exact ⟨fun ⟨_, hdepth, _⟩ => hdepth, fun hdepth => ⟨_, hdepth, rfl⟩⟩

/-- A return that a command sets out to carry out is refused just when no call is outstanding. -/
theorem ret_refused_iff {m : Machine} {command : Command} {w : Opcode}
    (h : command.instruction? m = some (.ret, w)) :
    (∃ fault, (m.perform command).reply = .refused fault) ↔ m.calls.toList = [] := by
  simp only [reply_refused_iff h, refusal?_eq_some_iff, reduceCtorEq, false_and, true_and, or_false,
    or_self, ← List.length_eq_zero_iff, CallStack.length_toList]
  exact ⟨fun ⟨_, hdepth, _⟩ => hdepth, fun hdepth => ⟨_, hdepth, rfl⟩⟩

/-- **The call stack is the book of outstanding calls.** After any run of a machine that starts with
no call outstanding, the slots below the depth are the book, oldest entry first; there are as many
entries as calls that were completed and not undone by a completed return, at most sixteen. A call is
refused just when there are sixteen, a return just when there is none. A return that matches a call
goes to the address after it, whatever was called and returned from in between. -/
theorem call_stack_refines_book (m : Machine) (hempty : m.calls.depth = 0) :
    (∀ commands,
      (m.run commands).calls.depth.val = (m.outstanding commands).length ∧
      (m.run commands).calls.slots.toList.take (m.run commands).calls.depth =
        m.outstanding commands ∧
      (m.outstanding commands).length ≤ 16 ∧
      (m.completed commands).countP (·.1 = .call) =
        (m.completed commands).countP (·.1 = .ret) + (m.outstanding commands).length) ∧
    (∀ commands command w, command.instruction? (m.run commands) = some (.call, w) →
      ((∃ fault, ((m.run commands).perform command).reply = .refused fault) ↔
        (m.outstanding commands).length = 16)) ∧
    (∀ commands command w, command.instruction? (m.run commands) = some (.ret, w) →
      ((∃ fault, ((m.run commands).perform command).reply = .refused fault) ↔
        m.outstanding commands = [])) ∧
    (∀ before call inner back, IsMatchingReturn m before call inner back →
      (m.run (before ++ call :: inner ++ [back])).pc = (m.run before).pc + 2) := by
  have hstack := toList_calls_run_of_empty hempty
  refine ⟨?_, ?_, ?_, ?_⟩
  · intro commands
    have hdepth : (m.run commands).calls.depth.val = (m.outstanding commands).length := by
      rw [← hstack, CallStack.length_toList]
    -- what is on the stack is what is outstanding, and to begin with there is nothing on it
    have hcount := countP_completed_call m commands
    rw [CallStack.length_toList, hempty, hstack, Fin.val_zero, Nat.add_zero] at hcount
    exact ⟨hdepth, hstack commands, by omega, hcount⟩
  · intro commands command w h
    rw [← hstack]
    exact call_refused_iff h
  · intro commands command w h
    rw [← hstack]
    exact ret_refused_iff h
  · intro before call inner back h
    exact pc_of_isMatchingReturn hempty h

/-- A call at the start address, another inside it that is returned from, and the return. -/
theorem nested_call_returns :
    (fresh .indexed (.ofSeed 0)).calls.depth = 0 ∧
    IsMatchingReturn (fresh .indexed (.ofSeed 0)) [] (.execute .call ⟨0x2300⟩)
      [.execute .call ⟨0x2400⟩, .tick, .execute .ret ⟨0x00EE⟩] (.execute .ret ⟨0x00EE⟩) ∧
    ((fresh .indexed (.ofSeed 0)).run [.execute .call ⟨0x2300⟩, .execute .call ⟨0x2400⟩, .tick,
      .execute .ret ⟨0x00EE⟩, .execute .ret ⟨0x00EE⟩]).pc = 0x202 := by
  have hmatch : IsMatchingReturn (fresh .indexed (.ofSeed 0)) [] (.execute .call ⟨0x2300⟩)
      [.execute .call ⟨0x2400⟩, .tick, .execute .ret ⟨0x00EE⟩] (.execute .ret ⟨0x00EE⟩) :=
    { called := ⟨⟨0x2300⟩, by decide⟩
      returned := ⟨⟨0x00EE⟩, by decide⟩
      level := by decide +kernel
      first := by
        intro earlier ret w hinner _
        rcases earlier with _ | ⟨_, _ | ⟨_, _ | ⟨_, _⟩⟩⟩ <;>
          simp only [List.nil_append, List.cons_append, List.cons_prefix_cons, List.prefix_nil,
            List.append_eq_nil_iff, reduceCtorEq, and_false, List.nil_prefix, and_true] at hinner
        · rw [hinner]
          decide +kernel
        · rw [hinner.1, hinner.2]
          decide +kernel
        · rw [hinner.1, hinner.2.1, hinner.2.2]
          decide +kernel }
  have hpc := (call_stack_refines_book _ rfl).2.2.2 _ _ _ _ hmatch
  exact ⟨rfl, hmatch, hpc.trans (by decide)⟩

end Chip8.Machine
