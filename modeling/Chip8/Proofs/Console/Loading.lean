import Chip8.Console.Basic
import Chip8.Proofs.Machine.Frame
import Chip8.Proofs.Machine.MemoryWrites

/-!
# Loading

A program comes into memory as a whole or not at all. What it puts there is its image, from the start
address on (`puts_install`); an image that is too long, or that breaks off, leaves no trace. There are
several ways from an image to a machine that has it, and they come to the same.

* `Memory.Puts.slice_eq`, `Memory.Puts.unique`: values that have been put are read back, and there is
  one memory only that has them put.
* `verdict_load`: to load is to make a program of the source, and to install it.
* `loading_is_all_or_nothing`: when loading fails, what it does, and that all ways agree.
-/

namespace Chip8

namespace Memory

/-! ## Values that have been put -/

namespace Puts

variable {before after other : Memory} {address : UInt16} {values : List UInt8}

/-- What has been put is read back. -/
theorem slice_eq (h : Puts before after address values) :
    after.slice address values.length = values := by
  refine List.ext_getElem (length_slice _ _ _) fun j hj hj' => ?_
  rw [getElem_slice, read_add]
  exact h.put j hj' _ rfl

/-- Only one memory has values put over another one. -/
theorem unique (h : Puts before after address values) (h' : Puts before other address values) :
    after = other := by
  refine ext_get fun i => ?_
  by_cases hplace : ∃ j < values.length, i.val = (address.toNat + j) % 4096
  · obtain ⟨j, hj, hi⟩ := hplace
    rw [h.put j hj i hi, h'.put j hj i hi]
  · have hnone (j : Nat) (hj : j < values.length) : i.val ≠ (address.toNat + j) % 4096 :=
      fun hi => hplace ⟨j, hj, hi⟩
    rw [h.kept i hnone, h'.kept i hnone]

end Puts

/-! ## Images -/

/-- Cell by cell: below the start address nothing is written, and from there on the image as far as it
goes. -/
theorem get_install (m : Memory) (image : Array UInt8) (i : Fin 4096) :
    (m.install image).bytes.get i =
      if i.val < programStart then m.bytes.get i
      else image.getD (i.val - programStart) (m.bytes.get i) := by
  have hget (bytes : Vector UInt8 4096) : bytes.get i = bytes[i.val] := rfl
  rw [hget, hget, install, Vector.getElem_ofFn]
  rfl

/-- An image is put at the start address, as far as there is room. -/
theorem puts_install (m : Memory) (image : Array UInt8) :
    Puts m (m.install image) (UInt16.ofNat programStart) (image.toList.take programRoom) := by
  have hstart : programStart = 512 := rfl
  have hroom : programRoom = 3584 := rfl
  have hplace (j : Nat) (hj : j < programRoom) :
      ((UInt16.ofNat programStart).toNat + j) % 4096 = programStart + j := by
    rw [hstart, UInt16.toNat_ofNat']
    omega
  constructor
  · intro j hj i hi
    have hlength := hj
    rw [List.length_take, Array.length_toList] at hlength
    have hi' : i.val = programStart + j := hi.trans (hplace j (by omega))
    have hoffset : i.val - programStart = j := by omega
    have hlt : j < image.size := by omega
    rw [get_install, if_neg (by omega), hoffset, List.getElem_take, Array.getElem_toList]
    simp [Array.getD, hlt]
  · intro i hi
    rw [get_install]
    by_cases hlow : i.val < programStart
    · rw [if_pos hlow]
    · -- a byte of the image in this cell would be one of those that are put
      have hlong : ¬i.val - programStart < image.size := by
        intro hlt
        have hbound := i.isLt
        have hj : i.val - programStart < (image.toList.take programRoom).length := by
          rw [List.length_take, Array.length_toList]
          omega
        refine hi _ hj ?_
        rw [hplace _ (by omega)]
        omega
      rw [if_neg hlow]
      simp [Array.getD, hlong]

/-- Of an image that is too long, the bytes that there is room for are loaded. -/
theorem install_take (m : Memory) (image : Array UInt8) :
    m.install (image.take programRoom) = m.install image := by
  have hputs := puts_install m (image.take programRoom)
  rw [Array.take_eq_extract, Array.toList_extract, List.extract_eq_take_drop, List.drop_zero,
    Nat.sub_zero, List.take_take, Nat.min_self] at hputs
  exact hputs.unique (puts_install m image)

end Memory

/-! ## From a source to a program -/

namespace Program

section Source

variable {source : ByteSource}

/-- A source yields a program just if it does not break off; the program has its bytes. -/
theorem ofSource_eq_ok_iff {program : Program} :
    ofSource source = .ok program ↔ source.failure = none ∧ program.bytes = source.bytes := by
  cases program with | mk bytes fits =>
  cases hfailure : source.failure with
  | some reason => simp [ofSource, hfailure]
  | none =>
    simp only [ofSource, hfailure, ofBytes, true_and]
    constructor
    · intro h
      split at h
      · cases h
        rfl
      · cases h
    · rintro rfl
      exact dif_pos fits

/-- A source is unreadable just if it breaks off, and for the reason it breaks off for. -/
theorem ofSource_eq_unreadable_iff {reason : String} :
    ofSource source = .error (.unreadable reason) ↔ source.failure = some reason := by
  cases hfailure : source.failure with
  | some reason' => simp [ofSource, hfailure]
  | none =>
    simp only [ofSource, hfailure, ofBytes, reduceCtorEq, iff_false]
    split <;> simp

/-- An image is too large just if all of it came and there is no room for it. -/
theorem ofSource_eq_tooLarge_iff {size : Nat} :
    ofSource source = .error (.tooLarge size) ↔
      source.failure = none ∧ Memory.programRoom < source.bytes.size ∧ size = source.bytes.size := by
  cases hfailure : source.failure with
  | some reason => simp [ofSource, hfailure]
  | none =>
    simp only [ofSource, hfailure, ofBytes, true_and]
    split
    · next hfits => simp [Nat.not_lt.2 hfits]
    · next hlong => simp [Nat.lt_of_not_le hlong, eq_comm]

end Source

end Program

/-- The wording of the refusal names the room that there is. -/
theorem LoadError.message_tooLarge (size : Nat) :
    (tooLarge size).message =
      "program image is " ++ toString size ++ " bytes, at most 3584 fit in memory" := by
  have hroom : toString Memory.programRoom = "3584" := by decide
  have hrest : " bytes, at most " ++ ("3584" ++ " fit in memory") =
      " bytes, at most 3584 fit in memory" := by decide
  calc (tooLarge size).message
      = "program image is " ++ toString size ++ " bytes, at most " ++ toString Memory.programRoom ++
          " fit in memory" := rfl
    _ = "program image is " ++ toString size ++ (" bytes, at most " ++ ("3584" ++ " fit in memory")) :=
        by rw [hroom]; simp only [String.append_assoc]
    _ = "program image is " ++ toString size ++ " bytes, at most 3584 fit in memory" :=
        congrArg _ hrest

/-! ## Loading -/

/-- The machine that an attempt leaves if it succeeds, and the reason if it fails. -/
def Attempt.verdict {ε : Type} (attempt : Attempt ε Unit) : Except ε Machine :=
  attempt.result.map fun _ => attempt.machine

namespace Machine

variable (m : Machine) (source : ByteSource)

/-- To load is to make a program of the source and to install it. -/
theorem verdict_load : (m.load source).verdict = (Program.ofSource source).map m.install := by
  rw [Attempt.verdict, load]
  cases Program.ofSource source <;> rfl

/-- Whether a load succeeds depends on the source only. -/
theorem result_load : (m.load source).result = (Program.ofSource source).map fun _ => () := by
  rw [load]
  cases Program.ofSource source <;> rfl

/-- A load fails for the reason for which there is no program. -/
theorem result_load_eq_error_iff (reason : LoadError) :
    (m.load source).result = .error reason ↔ Program.ofSource source = .error reason := by
  rw [result_load]
  cases Program.ofSource source <;> simp [Except.map]

/-- Loading succeeds when the source does not break off and its bytes fit. -/
theorem result_load_eq_ok_iff :
    (m.load source).result = .ok () ↔
      source.failure = none ∧ source.bytes.size ≤ Memory.programRoom := by
  rw [result_load]
  cases hprogram : Program.ofSource source with
  | ok program =>
    obtain ⟨hfailure, hbytes⟩ := Program.ofSource_eq_ok_iff.1 hprogram
    simp [Except.map, hfailure, ← hbytes, program.fits]
  | error reason =>
    cases reason with
    | unreadable reason =>
      simp [Except.map, Program.ofSource_eq_unreadable_iff.1 hprogram]
    | tooLarge size =>
      obtain ⟨-, hlong, -⟩ := Program.ofSource_eq_tooLarge_iff.1 hprogram
      simp [Except.map, Nat.not_le.2 hlong]

variable {m source}

/-- A load that fails leaves the machine as it is. -/
theorem machine_load_of_error {reason : LoadError} (h : (m.load source).result = .error reason) :
    (m.load source).machine = m := by
  rw [result_load_eq_error_iff] at h
  rw [load, h]
  rfl

/-- A load that succeeds installs the program of the bytes of its source. -/
theorem exists_load_of_ok (h : (m.load source).result = .ok ()) :
    ∃ program : Program, program.bytes = source.bytes ∧ (m.load source).machine = m.install program := by
  rw [result_load] at h
  cases hprogram : Program.ofSource source with
  | error reason =>
    rw [hprogram] at h
    cases h
  | ok program =>
    refine ⟨program, (Program.ofSource_eq_ok_iff.1 hprogram).2, ?_⟩
    rw [load, hprogram]

/-- A load that succeeds puts the image at the start address, and does nothing else. -/
theorem machine_load_of_ok (h : (m.load source).result = .ok ()) :
    (m.load source).machine = { m with memory := (m.load source).machine.memory } ∧
      Memory.Puts m.memory (m.load source).machine.memory (UInt16.ofNat Memory.programStart)
        source.bytes.toList := by
  obtain ⟨program, hbytes, hmachine⟩ := exists_load_of_ok h
  have hputs := Memory.puts_install m.memory program.bytes
  rw [List.take_of_length_le (by simpa using program.fits), hbytes] at hputs
  obtain ⟨memory, hmemory⟩ := exists_install_eq m program
  have hmemory' : (m.load source).machine.memory = m.memory.install source.bytes := by
    rw [hmachine, install, hbytes]
  rw [hmemory']
  refine ⟨?_, hputs⟩
  rw [hmachine, install, hbytes]

end Machine

/-- The console that is left if loading succeeds, and the reason if it fails. -/
def Loading.verdict (loading : Loading) : Except LoadError Console :=
  loading.result.map fun _ => loading.console

namespace Console

/-- A console that is loaded after it was set up is the one that is set up with the program. -/
theorem verdict_load_ofSettings (settings : Settings) (entropy : ChaCha.Key) (source : ByteSource) :
    ((ofSettings settings entropy).load source).verdict =
      (Program.ofSource source).map (ofProgram settings entropy) := by
  rw [Loading.verdict, load, Machine.result_load]
  cases hprogram : Program.ofSource source with
  | error reason => rfl
  | ok program =>
    simp only [Except.map, ofSettings, Machine.load, hprogram, ofProgram]

/-- **Loading is all or nothing, and exact.** A source that breaks off is unreadable, however many bytes
came before; otherwise its image is refused exactly if it has more than 3584 bytes. A load that fails
leaves no trace. One that succeeds puts the image at the start address, where it can be read back, and
changes nothing else. To make a program of bytes, to make one of a source and to load a source come to
the same, and so do setting up a console with a program and loading it afterwards. Of bytes that are
put into memory unchecked, the first 3584 count. -/
theorem loading_is_all_or_nothing :
    (∀ (m : Machine) (source : ByteSource),
      let attempt := m.load source
      let size := source.bytes.size
      (∀ reason, attempt.result = .error (.unreadable reason) ↔ source.failure = some reason) ∧
      (∀ given, attempt.result = .error (.tooLarge given) ↔
        source.failure = none ∧ 3584 < size ∧ given = size) ∧
      (attempt.result = .ok () ↔ source.failure = none ∧ size ≤ 3584) ∧
      (∀ reason, attempt.result = .error reason → attempt.machine = m) ∧
      (attempt.result = .ok () →
        attempt.machine = { m with memory := attempt.machine.memory } ∧
        Memory.Puts m.memory attempt.machine.memory 0x200 source.bytes.toList ∧
        attempt.machine.memory.slice 0x200 size = source.bytes.toList)) ∧
    (∀ given, (LoadError.tooLarge given).message =
      "program image is " ++ toString given ++ " bytes, at most 3584 fit in memory") ∧
    (∀ (m : Machine) (source : ByteSource),
      (m.load source).verdict = (Program.ofSource source).map m.install ∧
      (source.failure = none →
        (Program.ofSource source).map m.install = (Program.ofBytes source.bytes).map m.install)) ∧
    (∀ (settings : Settings) (entropy : ChaCha.Key) (source : ByteSource),
      ((ofSettings settings entropy).load source).verdict =
        (Program.ofSource source).map (ofProgram settings entropy)) ∧
    (∀ (memory : Memory) (image : Array UInt8),
      memory.install image = memory.install (image.take 3584) ∧
      Memory.Puts memory (memory.install image) 0x200 (image.toList.take 3584)) := by
  refine ⟨?_, LoadError.message_tooLarge, ?_, verdict_load_ofSettings, ?_⟩
  · intro m source attempt size
    refine ⟨?_, ?_, Machine.result_load_eq_ok_iff m source,
      fun reason => Machine.machine_load_of_error, ?_⟩
    · intro reason
      rw [Machine.result_load_eq_error_iff, Program.ofSource_eq_unreadable_iff]
    · intro given
      rw [Machine.result_load_eq_error_iff, Program.ofSource_eq_tooLarge_iff]
      rfl
    · intro h
      obtain ⟨hmachine, hputs⟩ := Machine.machine_load_of_ok h
      have hslice := hputs.slice_eq
      rw [Array.length_toList] at hslice
      exact ⟨hmachine, hputs, hslice⟩
  · intro m source
    refine ⟨Machine.verdict_load m source, ?_⟩
    intro h
    rw [Program.ofSource, h]
  · intro memory image
    exact ⟨(Memory.install_take memory image).symm, Memory.puts_install memory image⟩

/-- A short image over an older one, a source that breaks off after too many bytes, and an image with
one byte too many. -/
theorem short_image_over_older_one :
    let m : Machine := { Machine.fresh .indexed (.ofSeed 0) with
      memory := ⟨Vector.replicate 4096 7⟩
      pc := 0x300 }
    let short : ByteSource := ⟨#[0x00, 0xE0], none⟩
    let broken : ByteSource := ⟨.replicate 4000 1, some "unplugged"⟩
    let long : ByteSource := ⟨.replicate 3585 1, none⟩
    let last : Fin 4096 := 0x201
    let next : Fin 4096 := 0x202
    ((m.load short).result = .ok () ∧ (m.load short).machine.memory.bytes.get last = 0xE0 ∧
      (m.load short).machine.memory.bytes.get next = 7 ∧ (m.load short).machine.pc = 0x300) ∧
    ((m.load broken).result = .error (.unreadable "unplugged") ∧ (m.load broken).machine = m) ∧
    ((m.load long).result = .error (.tooLarge 3585) ∧ (m.load long).machine = m) ∧
    (short.failure = none ∧
      (Program.ofSource short).map m.install = (Program.ofBytes short.bytes).map m.install) := by
  intro m short broken long last next
  obtain ⟨hloads, -, hways, -, -⟩ := loading_is_all_or_nothing
  obtain ⟨-, -, hok, -, hput⟩ := hloads m short
  obtain ⟨hunreadable, -, -, hbroken, -⟩ := hloads m broken
  obtain ⟨-, htooLarge, -, hlong, -⟩ := hloads m long
  have hshort : (m.load short).result = .ok () := hok.2 ⟨rfl, by decide⟩
  have hbreaks : (m.load broken).result = .error (.unreadable "unplugged") :=
    (hunreadable "unplugged").2 rfl
  have hexceeds : (m.load long).result = .error (.tooLarge 3585) := by
    refine (htooLarge 3585).2 ⟨rfl, ?_⟩
    rw [Array.size_replicate]
    decide
  obtain ⟨hmachine, hputs, -⟩ := hput hshort
  have hseven : m.memory.bytes.get next = 7 := by simp [m, Vector.get]
  refine ⟨⟨hshort, hputs.put 1 (by decide) last rfl, ?_, ?_⟩, ⟨hbreaks, hbroken _ hbreaks⟩,
    ⟨hexceeds, hlong _ hexceeds⟩, rfl, (hways m short).2 rfl⟩
  · have hkept := hputs.kept next fun j (hj : j < 2) hi => by
      have hplace : (0x202 : Nat) = (0x200 + j) % 4096 := hi
      omega
    rw [hkept, hseven]
  · rw [hmachine]

end Console

end Chip8
