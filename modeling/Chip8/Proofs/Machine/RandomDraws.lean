import Chip8.Proofs.Machine.Run

/-!
# Random bytes

A program draws from the random source in one place only, when a random byte is loaded into a
register. The source counts its draws, so that after any run its position is the number of those
loads, and what a load brings depends on the key and on that number alone.

* `random_perform`, `random_run`: the position after a command and after a run.
* `random_of_seed`: the position of a machine with a seed.
* `get_perform_of_random`: what a load brings.
* `random_words_in_order`: all of it, word by word.
-/

namespace Chip8

/-- The byte handed out is the low one of the word. -/
theorem Keystream.byteAt_eq (key : ChaCha.Key) (i : Nat) :
    byteAt key i = UInt8.ofNat ((wordAt key i).toNat % 256) := by
  rw [byteAt, ← UInt8.toNat_inj]
  simp

namespace Machine

/-- How many random bytes a run has loaded. -/
def draws (m : Machine) (commands : List Command) : Nat :=
  (m.completed commands).countP fun instruction => instruction.1 = .random

theorem draws_cons (m : Machine) (command : Command) (rest : List Command) :
    m.draws (command :: rest) = m.draws [command] + (m.perform command).machine.draws rest := by
  simp [draws, completed, List.countP_append]

section Perform

variable {m : Machine} {command : Command} {w : Opcode}

/-- No load of a random byte is refused. -/
theorem completed?_of_random (h : command.instruction? m = some (.random, w)) :
    command.completed? m = some (.random, w) :=
  completed?_eq_some_iff.2 ⟨h, rfl⟩

/-- What loads a random byte draws once, whatever its mask. -/
theorem draws_of_random (h : command.completed? m = some (.random, w)) : m.draws [command] = 1 := by
  simp [draws, completed, h]

/-- Nothing else draws. -/
theorem draws_of_other (h : ∀ w, command.completed? m ≠ some (.random, w)) :
    m.draws [command] = 0 := by
  rw [draws, List.countP_eq_zero]
  rintro ⟨operation, w⟩ hmem hrandom
  obtain rfl : operation = .random := of_decide_eq_true hrandom
  exact h w (by simpa [completed, eq_comm] using hmem)

/-- **One command.** The source moves on by the draws. -/
theorem random_perform (m : Machine) (command : Command) :
    (m.perform command).machine.random =
      { m.random with drawn := m.random.drawn + m.draws [command] } := by
  cases hcompleted : command.completed? m with
  | none =>
    rw [(untouched_perform hcompleted).random, draws_of_other (by simp [hcompleted]), Nat.add_zero]
  | some instruction =>
    obtain ⟨operation, w⟩ := instruction
    rw [machine_perform_of_completed hcompleted]
    -- the operation alone decides: the mask in `w` plays no part in how far the source moves
    by_cases hrandom : operation = .random
    · subst hrandom
      rw [draws_of_random hcompleted]
      rfl
    · rw [(footprint_effect operation w m).random hrandom,
        draws_of_other (by simp [hcompleted, hrandom]), Nat.add_zero]

/-- What a load brings. -/
theorem get_perform_of_random (h : command.completed? m = some (.random, w)) :
    (m.perform command).machine.registers.get w.x = m.random.next.1 &&& w.kk := by
  rw [machine_perform_of_completed h]
  exact RegisterFile.get_set_self ..

end Perform

/-- **A whole run.** -/
theorem random_run (m : Machine) (commands : List Command) :
    (m.run commands).random =
      { m.random with drawn := m.random.drawn + m.draws commands } := by
  induction commands generalizing m with
  | nil => rfl
  | cons command rest ih => rw [run_cons, ih, random_perform, draws_cons m command rest, Nat.add_assoc]

/-- After any run of a machine with a seed, the source is where the loads have brought it. -/
theorem random_of_seed {settings : Settings} {seed : UInt64} (hseed : settings.seed = some seed)
    (entropy : ChaCha.Key) (commands : List Command) :
    ((ofSettings settings entropy).run commands).random =
      ⟨Keystream.keyOfSeed seed, (ofSettings settings entropy).draws commands⟩ := by
  have hsource : (ofSettings settings entropy).random = ⟨Keystream.keyOfSeed seed, 0⟩ := by
    rw [ofSettings, fresh, randomSource, hseed]
    rfl
  rw [random_run, hsource, Nat.zero_add]

/-- **Random words in order.** On a machine with a seed, take the words of the ChaCha blocks of its key,
block after block and each block in order. After any run the source is at the word whose number is the
number of random bytes loaded so far. A command that sets out to load one, after `j` others, does so:
what it brings is the low byte of word `j`, under the mask of its instruction. It moves the source on by
one word, whatever the mask, and any other command leaves the source where it is. So on two machines
with one seed the loads that come after equally many others bring the same byte, each under its own
mask, whatever else the machines have been through. -/
theorem random_words_in_order :
    (∀ (settings : Settings) (seed : UInt64) (entropy : ChaCha.Key), settings.seed = some seed →
      let new := ofSettings settings entropy
      let key := Keystream.keyOfSeed seed
      let word (j : Nat) : UInt32 := (ChaCha.block key (UInt64.ofNat (j / 16))).get (Fin.ofNat 16 j)
      (∀ commands, (new.run commands).random = ⟨key, new.draws commands⟩) ∧
      ∀ before command w, command.instruction? (new.run before) = some (.random, w) →
        (new.run (before ++ [command])).registers.get w.x =
          UInt8.ofNat ((word (new.draws before)).toNat % 256) &&& w.kk) ∧
    (∀ (m : Machine) (command : Command),
      ((∃ w, command.instruction? m = some (.random, w)) →
        (m.perform command).machine.random = { m.random with drawn := m.random.drawn + 1 }) ∧
      ((∀ w, command.instruction? m ≠ some (.random, w)) →
        (m.perform command).machine.random = m.random)) ∧
    (∀ (settings₁ settings₂ : Settings) (seed : UInt64) (entropy₁ entropy₂ : ChaCha.Key)
        (before₁ before₂ : List Command) (command₁ command₂ : Command) (w₁ w₂ : Opcode),
      settings₁.seed = some seed → settings₂.seed = some seed →
      let new₁ := ofSettings settings₁ entropy₁
      let new₂ := ofSettings settings₂ entropy₂
      command₁.instruction? (new₁.run before₁) = some (.random, w₁) →
      command₂.instruction? (new₂.run before₂) = some (.random, w₂) →
      new₁.draws before₁ = new₂.draws before₂ →
      ∃ byte, (new₁.run before₁).random.next.1 = byte ∧ (new₂.run before₂).random.next.1 = byte ∧
        (new₁.run (before₁ ++ [command₁])).registers.get w₁.x = byte &&& w₁.kk ∧
        (new₂.run (before₂ ++ [command₂])).registers.get w₂.x = byte &&& w₂.kk) := by
  refine ⟨?_, ?_, ?_⟩
  · intro settings seed entropy hseed new key word
    refine ⟨random_of_seed hseed entropy, fun before command w h => ?_⟩
    have hrandom : (new.run before).random = ⟨key, new.draws before⟩ :=
      random_of_seed hseed entropy before
    rw [run_concat, get_perform_of_random (completed?_of_random h), hrandom, Keystream.next,
      Keystream.byteAt_eq]
    rfl
  · intro m command
    constructor
    · rintro ⟨w, h⟩
      rw [random_perform, draws_of_random (completed?_of_random h)]
    · intro hother
      have hcompleted : ∀ w, command.completed? m ≠ some (.random, w) := fun w h =>
        hother w (completed?_eq_some_iff.1 h).1
      rw [random_perform, draws_of_other hcompleted, Nat.add_zero]
  · intro settings₁ settings₂ seed entropy₁ entropy₂ before₁ before₂ command₁ command₂ w₁ w₂ hseed₁
      hseed₂ new₁ new₂ h₁ h₂ hdraws
    have hrandom : (new₂.run before₂).random = (new₁.run before₁).random := by
      rw [random_of_seed hseed₁, random_of_seed hseed₂, hdraws]
    refine ⟨_, rfl, congrArg (·.next.1) hrandom, ?_, ?_⟩
    · rw [run_concat, get_perform_of_random (completed?_of_random h₁)]
    · rw [run_concat, get_perform_of_random (completed?_of_random h₂), hrandom]

/-- Two machines with one seed. The first load of one of them has the mask zero, brings zero and moves
the source on all the same; a tick does not. The other machine waits for a key after its first load. The
second loads bring the same byte, which one leaves as it is and the other cuts to four bits. -/
theorem second_loads_alike :
    let first : Settings := { seed := some 7 }
    let second : Settings := { seed := some 7, transfer := .standard }
    let new₁ := ofSettings first (Vector.replicate 8 0)
    let new₂ := ofSettings second (Vector.replicate 8 1)
    let blank : Command := .execute .random ⟨0xC100⟩
    let low : Command := .execute .random ⟨0xC50F⟩
    let whole : Command := .execute .random ⟨0xC3FF⟩
    let before₁ : List Command := [blank, .tick]
    let before₂ : List Command := [whole, .execute .awaitKey ⟨0xF20A⟩, .cycle, .press 0x4]
    (new₁.run [blank]).registers.get 1 = 0 ∧ (new₁.perform blank).machine.random.drawn = 1 ∧
      (new₁.perform .tick).machine.random = new₁.random ∧
      new₁.draws before₁ = 1 ∧ new₂.draws before₂ = 1 ∧
      ∃ byte, (new₁.run (before₁ ++ [whole])).registers.get 3 = byte &&& 0xFF ∧
        (new₂.run (before₂ ++ [low])).registers.get 5 = byte &&& 0x0F := by
  intro first second new₁ new₂ blank low whole before₁ before₂
  obtain ⟨hword, hstep, hpair⟩ := random_words_in_order
  have hblank : (new₁.run [blank]).registers.get 1 = 0 := by
    refine ((hword first 7 (Vector.replicate 8 0) rfl).2 [] blank ⟨0xC100⟩ rfl).trans ?_
    exact UInt8.and_zero
  have hdraws₁ : new₁.draws before₁ = 1 := by decide
  have hdraws₂ : new₂.draws before₂ = 1 := by decide
  obtain ⟨byte, -, -, hwhole, hlow⟩ := hpair first second 7 (Vector.replicate 8 0)
    (Vector.replicate 8 1) before₁ before₂ whole low _ _ rfl rfl rfl rfl (hdraws₁.trans hdraws₂.symm)
  refine ⟨hblank, ?_, ?_, hdraws₁, hdraws₂, byte, hwhole, hlow⟩
  · rw [(hstep new₁ blank).1 ⟨⟨0xC100⟩, rfl⟩]
    rfl
  · exact (hstep new₁ .tick).2 (by simp [Command.instruction?])

end Machine

end Chip8
