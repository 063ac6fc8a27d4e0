/-!
# The key layout

The sixteen keys on the left-hand block of a typewriter keyboard, in the places that they have on
the hexadecimal keypad:

    1 2 3 4        1 2 3 C
    q w e r        4 5 6 D
    a s d f        7 8 9 E
    z x c v        A 0 B F
-/

namespace Chip8.KeyLayout

/-- The characters of the keyboard block, in the order of the codes of their keys. -/
def characters : List Char :=
  ['x', '1', '2', '3', 'q', 'w', 'e', 'a', 's', 'd', 'z', 'c', '4', 'r', 'f', 'v']

/-- The code of the key under a character, if there is one. -/
def code? (character : Char) : Option UInt8 :=
  (characters.findIdx? fun c => c == character).map UInt8.ofNat

/-- Each key has its character. -/
theorem length_characters : characters.length = 16 := rfl

end Chip8.KeyLayout
