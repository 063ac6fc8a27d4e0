/-!
# The register file

Sixteen byte registers, `V0` to `VF`. The last one also receives the flag of the instructions that
have one. Block transfers move runs of neighbouring registers: `window` reads such a run and
`overwrite` replaces one.
-/

namespace Chip8

/-- The number of a register. -/
abbrev RegisterIndex := Fin 16

/-- The values of `V0` to `VF`. -/
structure RegisterFile where
  values : Vector UInt8 16
deriving DecidableEq

namespace RegisterFile

/-- The register that receives flags, `VF`. -/
def flag : RegisterIndex := Fin.last 15

/-- The first register, `V0`, from which jumps take an offset. -/
def first : RegisterIndex := ⟨0, by decide⟩

/-- All registers zero. -/
def zero : RegisterFile :=
  ⟨Vector.replicate 16 0⟩

/-- The value of a register. -/
def get (v : RegisterFile) (r : RegisterIndex) : UInt8 :=
  v.values[r]

/-- Replaces the value of a register. -/
def set (v : RegisterFile) (r : RegisterIndex) (value : UInt8) : RegisterFile :=
  ⟨v.values.set r value r.isLt⟩

/-- The values of `count` neighbouring registers from number `base` on, as far as there are any. -/
def window (v : RegisterFile) (base count : Nat) : List UInt8 :=
  (v.values.toList.drop base).take count

/-- Replaces the registers from number `base` on by the given values, as far as there are any. -/
def overwrite (v : RegisterFile) (base : Nat) (values : List UInt8) : RegisterFile :=
  ⟨Vector.ofFn fun i => if base ≤ i then values.getD (i - base) (v.get i) else v.get i⟩

/-- Two register files with the same value in every register are equal. -/
theorem ext_get {v w : RegisterFile} (h : ∀ r, v.get r = w.get r) : v = w := by
  cases v with | mk values => cases w with | mk values' =>
  congr 1
  exact Vector.ext fun i hi => h ⟨i, hi⟩

/-- A register after one of the registers was set. -/
theorem get_set (v : RegisterFile) (r s : RegisterIndex) (value : UInt8) :
    (v.set r value).get s = if r = s then value else v.get s := by
  simp only [get, set, Fin.getElem_fin, Vector.getElem_set, Fin.ext_iff]

/-- A register that is set has the value it is set to. -/
@[simp] theorem get_set_self (v : RegisterFile) (r : RegisterIndex) (value : UInt8) :
    (v.set r value).get r = value := by
  rw [get_set, if_pos rfl]

/-- Setting a register leaves the others alone. -/
theorem get_set_of_ne (v : RegisterFile) {r s : RegisterIndex} (h : r ≠ s) (value : UInt8) :
    (v.set r value).get s = v.get s := by
  rw [get_set, if_neg h]

/-- A register after a run of registers was overwritten. -/
theorem get_overwrite (v : RegisterFile) (base : Nat) (values : List UInt8) (r : RegisterIndex) :
    (v.overwrite base values).get r =
      if base ≤ r.val then values.getD (r.val - base) (v.get r) else v.get r := by
  simp only [get, overwrite, Fin.getElem_fin, Vector.getElem_ofFn]

/-- Overwriting a run of registers leaves the others alone. -/
theorem get_overwrite_of_outside (v : RegisterFile) {base : Nat} {values : List UInt8}
    {r : RegisterIndex} (h : ¬(base ≤ r.val ∧ r.val < base + values.length)) :
    (v.overwrite base values).get r = v.get r := by
  rw [get_overwrite]
  split
  · next hbase =>
    have hpast : values.length ≤ r.val - base := by omega
    rw [List.getD_eq_getElem?_getD, List.getElem?_eq_none hpast, Option.getD_none]
  · rfl

/-- Neighbouring registers, one by one. -/
theorem window_eq_ofFn (v : RegisterFile) {base count : Nat} (h : base + count ≤ 16) :
    v.window base count = List.ofFn fun j : Fin count => v.get ⟨base + j, by omega⟩ := by
  refine List.ext_getElem ?_ fun j hj _ => ?_
  · simp only [window, List.length_take, List.length_drop, Vector.length_toList, List.length_ofFn]
    omega
  · simp only [window, get, List.getElem_take, List.getElem_drop, Vector.getElem_toList,
      List.getElem_ofFn, Fin.getElem_fin]

/-- A window that fits is as long as it is asked to be. -/
@[simp] theorem length_window (v : RegisterFile) {base count : Nat} (h : base + count ≤ 16) :
    (v.window base count).length = count := by
  rw [window_eq_ofFn v h, List.length_ofFn]

/-- A run of registers is the run of its first registers and the run after them. -/
theorem window_add (v : RegisterFile) (base i j : Nat) :
    v.window base (i + j) = v.window base i ++ v.window (base + i) j := by
  simp only [window, List.take_add, List.drop_drop]

/-- The first of a run of registers. -/
theorem take_window (v : RegisterFile) (base : Nat) {i count : Nat} (h : i ≤ count) :
    (v.window base count).take i = v.window base i := by
  rw [window, List.take_take, Nat.min_eq_left h, window]

/-- Two runs of registers that lie one after the other are overwritten as one. -/
theorem overwrite_append (v : RegisterFile) (base : Nat) (first second : List UInt8) :
    v.overwrite base (first ++ second) =
      (v.overwrite base first).overwrite (base + first.length) second := by
  apply ext_get
  intro r
  rw [get_overwrite, get_overwrite, get_overwrite, List.getD_eq_getElem?_getD,
    List.getD_eq_getElem?_getD, List.getD_eq_getElem?_getD, List.getElem?_append]
  by_cases hbase : base ≤ r.val
  · rw [if_pos hbase, if_pos hbase]
    by_cases hfirst : r.val - base < first.length
    · rw [if_pos hfirst, if_neg (by omega)]
    · have hpast : first[r.val - base]? = none := List.getElem?_eq_none (by omega)
      have hplace : r.val - (base + first.length) = r.val - base - first.length := by omega
      rw [if_neg hfirst, if_pos (by omega), hpast, hplace, Option.getD_none]
  · rw [if_neg hbase, if_neg hbase, if_neg (by omega)]

/-- A run of registers that was overwritten is as it was overwritten, as far as one reads. -/
theorem window_overwrite (v : RegisterFile) {base count : Nat} {values : List UInt8}
    (h : base + values.length ≤ 16) (hcount : count ≤ values.length) :
    (v.overwrite base values).window base count = values.take count := by
  rw [window_eq_ofFn _ (by omega)]
  refine List.ext_getElem ?_ fun j hj _ => ?_
  · rw [List.length_ofFn, List.length_take, Nat.min_eq_left hcount]
  · rw [List.length_ofFn] at hj
    rw [List.getElem_ofFn, get_overwrite, if_pos (Nat.le_add_right _ _), List.getElem_take]
    simp only [Nat.add_sub_cancel_left]
    rw [List.getD_eq_getElem?_getD, List.getElem?_eq_getElem (by omega), Option.getD_some]

/-- Registers taken over from another register file. -/
theorem get_overwrite_window (v w : RegisterFile) {base count : Nat} (h : base + count ≤ 16)
    (r : RegisterIndex) :
    (v.overwrite base (w.window base count)).get r =
      if base ≤ r.val ∧ r.val < base + count then w.get r else v.get r := by
  split
  · next hinside =>
    have hj : r.val - base < (w.window base count).length := by
      rw [length_window w h]
      omega
    rw [get_overwrite, if_pos hinside.1, List.getD_eq_getElem?_getD, List.getElem?_eq_getElem hj,
      Option.getD_some]
    have hplace : base + (r.val - base) = r.val := Nat.add_sub_of_le hinside.1
    simp only [window_eq_ofFn w h, List.getElem_ofFn, hplace]
  · next houtside =>
    apply get_overwrite_of_outside
    rwa [length_window w h]

end RegisterFile

end Chip8
