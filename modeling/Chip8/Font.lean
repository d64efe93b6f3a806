/-!
# The built-in font

Sixteen glyphs, one for each hexadecimal digit, four pixels wide and five rows tall. A row is one
byte and only its high half is drawn, so the digit `0` is

    F0  ****
    90  *  *
    90  *  *
    90  *  *
    F0  ****

* `Font.glyph`: the rows of a digit's glyph.
* `Font.sheet`: all glyphs in the order of their digits, as they lie in memory from `Font.start`.
* `Font.address`: where a digit's glyph begins.
-/

namespace Chip8.Font

/-- Where the glyphs lie in memory. -/
abbrev start : Nat := 0x050

/-- The number of rows, hence of bytes, of a glyph. -/
abbrev glyphSize : Nat := 5

/-- The rows of every digit's glyph, from top to bottom. -/
def glyphs : Vector (List UInt8) 16 := #v[
  [0xF0, 0x90, 0x90, 0x90, 0xF0],
  [0x20, 0x60, 0x20, 0x20, 0x70],
  [0xF0, 0x10, 0xF0, 0x80, 0xF0],
  [0xF0, 0x10, 0xF0, 0x10, 0xF0],
  [0x90, 0x90, 0xF0, 0x10, 0x10],
  [0xF0, 0x80, 0xF0, 0x10, 0xF0],
  [0xF0, 0x80, 0xF0, 0x90, 0xF0],
  [0xF0, 0x10, 0x20, 0x40, 0x40],
  [0xF0, 0x90, 0xF0, 0x90, 0xF0],
  [0xF0, 0x90, 0xF0, 0x10, 0xF0],
  [0xF0, 0x90, 0xF0, 0x90, 0x90],
  [0xE0, 0x90, 0xE0, 0x90, 0xE0],
  [0xF0, 0x80, 0x80, 0x80, 0xF0],
  [0xE0, 0x90, 0x90, 0x90, 0xE0],
  [0xF0, 0x80, 0xF0, 0x80, 0xF0],
  [0xF0, 0x80, 0xF0, 0x80, 0x80]]

/-- The glyph of a digit. -/
def glyph (digit : Fin 16) : List UInt8 :=
  glyphs[digit]

/-- All glyphs, one after the other. -/
def sheet : List UInt8 :=
  (List.finRange 16).flatMap glyph

/-- Where the glyph of a digit begins; bytes above fifteen lead past the sheet. -/
def address (digit : UInt8) : UInt16 :=
  UInt16.ofNat (start + glyphSize * digit.toNat)

/-- The sheet holds sixteen glyphs of five bytes. -/
theorem length_sheet : sheet.length = 16 * glyphSize := by
  decide

end Chip8.Font
