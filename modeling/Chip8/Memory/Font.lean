import Chip8.Memory

/-!
# The built-in glyphs

Programs that print digits expect to find their shapes in low memory.  A glyph is
four pixels wide and five rows tall; each row is a byte whose upper half is the
row, so a glyph can be drawn as a sprite as it stands.  The sixteen glyphs follow
each other from `0x050`, which is why `glyphAddress` is a multiplication.
-/

namespace Chip8
namespace Font

/-- Where the glyphs start. -/
def start : UInt16 := 0x050

/-- The rows of a glyph. -/
def glyphHeight : Nat := 5

/-- The rows of all glyphs, digit by digit. -/
def rows : List UInt8 :=
  [0xF0, 0x90, 0x90, 0x90, 0xF0,
   0x20, 0x60, 0x20, 0x20, 0x70,
   0xF0, 0x10, 0xF0, 0x80, 0xF0,
   0xF0, 0x10, 0xF0, 0x10, 0xF0,
   0x90, 0x90, 0xF0, 0x10, 0x10,
   0xF0, 0x80, 0xF0, 0x10, 0xF0,
   0xF0, 0x80, 0xF0, 0x90, 0xF0,
   0xF0, 0x10, 0x20, 0x40, 0x40,
   0xF0, 0x90, 0xF0, 0x90, 0xF0,
   0xF0, 0x90, 0xF0, 0x10, 0xF0,
   0xF0, 0x90, 0xF0, 0x90, 0x90,
   0xE0, 0x90, 0xE0, 0x90, 0xE0,
   0xF0, 0x80, 0x80, 0x80, 0xF0,
   0xE0, 0x90, 0x90, 0x90, 0xE0,
   0xF0, 0x80, 0xF0, 0x80, 0xF0,
   0xF0, 0x80, 0xF0, 0x80, 0x80]

/-- The address of the glyph of the digit in the low half of a byte. -/
def glyphAddress (value : UInt8) : UInt16 :=
  start + UInt16.ofNat (glyphHeight * (value.toNat % 16))

/-- Sixteen glyphs of five rows. -/
theorem length_rows : rows.length = 16 * glyphHeight := by decide

end Font

/-- Memory with the glyphs in place. -/
def Memory.withFont (m : Memory) : Memory := m.overwrite Font.start.toNat Font.rows

end Chip8
