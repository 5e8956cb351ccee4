/-!
# The hexadecimal font

Every digit from 0 to F has a glyph of four by five pixels: five bytes, one for each row, with the
pixels in the high half.
-/

namespace ChipEight.Font

def glyphHeight : Nat := 5

/-- The glyphs of 0 to F, one after another. -/
def bytes : List UInt8 :=
  [0xF0, 0x90, 0x90, 0x90, 0xF0,
   0x20, 0x60, 0x20, 0x20, 0x70,
   0xF0, 0x10, 0xF0, 0x80, 0xF0,
   0xF0, 0x10, 0xF0, 0x10, 0xF0,
   0x90, 0x90, 0xF0, 0x10, 0x10,
   0xF0, 0x80, 0xF0, 0x10, 0xF0,
   0xF0, 0x80, 0xF0, 0x90, 0xF0,
   0xF0, 0x10, 0x20, 0x40, 0x40,
   0xF0, 0x90, 0xF0, 0x90, 0xF0,
   0xF0, 0x90, 0xF0, 0x10, 0xF0,
   0xF0, 0x90, 0xF0, 0x90, 0x90,
   0xE0, 0x90, 0xE0, 0x90, 0xE0,
   0xF0, 0x80, 0x80, 0x80, 0xF0,
   0xE0, 0x90, 0x90, 0x90, 0xE0,
   0xF0, 0x80, 0xF0, 0x80, 0xF0,
   0xF0, 0x80, 0xF0, 0x80, 0x80]

/-- Where the glyph of a digit starts. -/
def glyphStart (digit : Nat) : Nat := glyphHeight * digit

theorem length_bytes : bytes.length = 16 * glyphHeight := rfl

end ChipEight.Font
