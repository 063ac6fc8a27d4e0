import Chip8.Random.ChaCha

/-!
# The random source

Random bytes are read off a ChaCha keystream: the words of block 0, of block 1 and so on in order,
one word a draw, of which the low byte is handed out. A source is its key and the number of draws so
far, so that what a draw yields is a function of those two (`byteAt`). Keys come from a 64-bit seed
or, for machines without one, from outside.
-/

namespace Chip8

/-- A keystream and how far it has been read. -/
structure Keystream where
  key : ChaCha.Key
  drawn : Nat
deriving DecidableEq

namespace Keystream

/-- One step of the linear generator that spreads a seed over a key. -/
def spread (state : UInt64) : UInt64 :=
  state * 6364136223846793005 + 11634580027462260723

/-- Rotates a word to the right, by an amount between 0 and 31. -/
def rotateRight (word amount : UInt32) : UInt32 :=
  (word >>> amount) ||| (word <<< (32 - amount))

/-- The word that a state of that generator gives: its upper bits mixed down to 32 and rotated to
the right by the topmost five. -/
def spreadWord (state : UInt64) : UInt32 :=
  rotateRight (((state >>> 18) ^^^ state) >>> 27).toUInt32 (state >>> 59).toUInt32

/-- The key of a seed: the words of the eight states that follow it. -/
def keyOfSeed (seed : UInt64) : ChaCha.Key :=
  Vector.ofFn fun i => spreadWord (Nat.repeat spread (i + 1) seed)

/-- The unread keystream of a key. -/
def ofKey (key : ChaCha.Key) : Keystream :=
  ⟨key, 0⟩

/-- The unread keystream of a seed. -/
def ofSeed (seed : UInt64) : Keystream :=
  ofKey (keyOfSeed seed)

/-- Word number `i` of the keystream of a key. -/
def wordAt (key : ChaCha.Key) (i : Nat) : UInt32 :=
  (ChaCha.block key (UInt64.ofNat (i / 16)))[i % 16]

/-- The byte that draw number `i` hands out. -/
def byteAt (key : ChaCha.Key) (i : Nat) : UInt8 :=
  (wordAt key i).toUInt8

/-- Draws one byte. -/
def next (source : Keystream) : UInt8 × Keystream :=
  (byteAt source.key source.drawn, { source with drawn := source.drawn + 1 })

end Keystream

end Chip8
