/-!
# The keypad

Sixteen keys, named by hexadecimal digits. Key codes are whole bytes, of which only the low four
bits count.
-/

namespace Chip8

/-- The name of a key. -/
abbrev Key := Fin 16

/-- The key that a code names: its low four bits. -/
def Key.ofCode (code : UInt8) : Key :=
  ⟨code.toNat % 16, Nat.mod_lt _ (by decide)⟩

/-- A key as a register value. -/
def Key.toByte (key : Key) : UInt8 :=
  UInt8.ofNat key

/-- The name of a key, as a register value, is its code modulo 16. -/
theorem Key.toByte_ofCode (code : UInt8) : (Key.ofCode code).toByte = code % 16 := by
  rw [← UInt8.toNat_inj, UInt8.toNat_mod]
  exact UInt8.toNat_ofNat_of_lt' (Nat.lt_trans (Nat.mod_lt _ (by decide)) (by decide))

/-- Which keys are held down. -/
structure Keypad where
  down : Vector Bool 16
deriving DecidableEq

namespace Keypad

/-- No key is down. -/
def released : Keypad :=
  ⟨Vector.replicate 16 false⟩

/-- Whether a key is down. -/
def isDown (pad : Keypad) (key : Key) : Bool :=
  pad.down[key]

/-- Puts a key down or up. -/
def set (pad : Keypad) (key : Key) (down : Bool) : Keypad :=
  ⟨pad.down.set key down key.isLt⟩

/-- A key after one of the keys was moved. -/
theorem isDown_set (pad : Keypad) (k j : Key) (down : Bool) :
    (pad.set k down).isDown j = if k = j then down else pad.isDown j := by
  simp only [isDown, set, Fin.getElem_fin, Vector.getElem_set, Fin.ext_iff]

/-- Two keypads with the same keys down are equal. -/
theorem ext_isDown {p q : Keypad} (h : ∀ key, p.isDown key = q.isDown key) : p = q := by
  cases p with | mk down => cases q with | mk down' =>
  congr 1
  exact Vector.ext fun i hi => h ⟨i, hi⟩

end Keypad

end Chip8
