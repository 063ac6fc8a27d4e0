/-!
# ChaCha blocks

The ChaCha block function with twelve rounds turns a key of eight words and a 64-bit counter into
sixteen words. The state is laid out as four constants, the key, the counter with its low half
first, and two words of zero; six double rounds mix it, and the state before mixing is added on at
the end.
-/

namespace Chip8.ChaCha

/-- Eight words of key. -/
abbrev Key := Vector UInt32 8

/-- Sixteen words, seen as four rows of four. -/
abbrev Block := Vector UInt32 16

/-- The first row of every state: the text `expand 32-byte k`, four bytes a word, low byte first. -/
def constants : Vector UInt32 4 :=
  #v[0x61707865, 0x3320646e, 0x79622d32, 0x6b206574]

/-- Rotates a word to the left, by an amount between 0 and 31. -/
def rotateLeft (word amount : UInt32) : UInt32 :=
  (word <<< amount) ||| (word >>> (32 - amount))

/-- Mixes the four words at the given places. -/
def quarterRound (a b c d : Fin 16) (s : Block) : Block :=
  let s := s.set a (s[a] + s[b])
  let s := s.set d (rotateLeft (s[d] ^^^ s[a]) 16)
  let s := s.set c (s[c] + s[d])
  let s := s.set b (rotateLeft (s[b] ^^^ s[c]) 12)
  let s := s.set a (s[a] + s[b])
  let s := s.set d (rotateLeft (s[d] ^^^ s[a]) 8)
  let s := s.set c (s[c] + s[d])
  s.set b (rotateLeft (s[b] ^^^ s[c]) 7)

/-- Mixes the four columns. -/
def columnRound (s : Block) : Block :=
  quarterRound 3 7 11 15 (quarterRound 2 6 10 14 (quarterRound 1 5 9 13 (quarterRound 0 4 8 12 s)))

/-- Mixes the four diagonals. -/
def diagonalRound (s : Block) : Block :=
  quarterRound 3 4 9 14 (quarterRound 2 7 8 13 (quarterRound 1 6 11 12 (quarterRound 0 5 10 15 s)))

/-- A round over the columns, then one over the diagonals. -/
def doubleRound (s : Block) : Block :=
  diagonalRound (columnRound s)

/-- The state before mixing. -/
def start (key : Key) (counter : UInt64) : Block :=
  constants ++ key ++ #v[counter.toUInt32, (counter >>> 32).toUInt32, 0, 0]

/-- The sixteen words of one block. -/
def block (key : Key) (counter : UInt64) : Block :=
  (Nat.repeat doubleRound 6 (start key counter)).zipWith (· + ·) (start key counter)

end Chip8.ChaCha
