/-!
# The built-in font

Every machine starts with the sixteen hexadecimal digits in the first bytes of its memory, as
sprites of five rows each: digit `d` lies at address `5 * d`.
-/

namespace Chip8.Font

/-- Rows of one glyph. -/
def glyphRows : Nat := 5

/-- The rows of the glyphs `0` to `F`, one glyph a line. -/
def bytes : Array UInt8 := #[
  0xF0, 0x90, 0x90, 0x90, 0xF0,
  0x20, 0x60, 0x20, 0x20, 0x70,
  0xF0, 0x10, 0xF0, 0x80, 0xF0,
  0xF0, 0x10, 0xF0, 0x10, 0xF0,
  0x90, 0x90, 0xF0, 0x10, 0x10,
  0xF0, 0x80, 0xF0, 0x10, 0xF0,
  0xF0, 0x80, 0xF0, 0x90, 0xF0,
  0xF0, 0x10, 0x20, 0x40, 0x40,
  0xF0, 0x90, 0xF0, 0x90, 0xF0,
  0xF0, 0x90, 0xF0, 0x10, 0xF0,
  0xF0, 0x90, 0xF0, 0x90, 0x90,
  0xE0, 0x90, 0xE0, 0x90, 0xE0,
  0xF0, 0x80, 0x80, 0x80, 0xF0,
  0xE0, 0x90, 0x90, 0x90, 0xE0,
  0xF0, 0x80, 0xF0, 0x80, 0xF0,
  0xF0, 0x80, 0xF0, 0x80, 0x80]

/-- There are sixteen glyphs. -/
theorem size_bytes : bytes.size = 16 * glyphRows := rfl

/-- The address of the glyph for a digit; values above fifteen point past the font. -/
def glyphAddress (digit : UInt8) : UInt16 :=
  digit.toUInt16 * 5

end Chip8.Font
