import Chip8.Block
import Chip8.Screen

/-!
# Textures

The picture of a screen as a display shows it: three bytes for each pixel, 255 for a lit one and 0
for a dark one, from left to right and from top to bottom.

* `Texture.row`, `Texture.ofScreen`: the bytes of one row and of the whole picture.
* `Texture.copyTo`: puts the rows into a buffer in which they begin `pitch` bytes apart. What lies
  between a row's end and the next row is left alone.
* `Texture.rowOf?`: a row of such a buffer.
-/

namespace Chip8.Texture

/-- The number of bytes of a pixel. -/
abbrev pixelSize : Nat := 3

/-- The number of bytes of a row. -/
abbrev rowSize : Nat := 192

/-- The bytes of one pixel. -/
def pixelBytes (lit : Bool) : List UInt8 :=
  List.replicate pixelSize (if lit then 255 else 0)

/-- The bytes of the row at height `y`. -/
def row (screen : Screen) (y : Nat) : List UInt8 :=
  (List.range Screen.width).flatMap fun x => pixelBytes (screen.pixel x y)

/-- The bytes of the whole picture. -/
def ofScreen (screen : Screen) : List UInt8 :=
  (List.range Screen.height).flatMap (row screen)

/-- Puts the rows of a picture into a buffer, the first at byte `start` and each one `pitch` bytes
after the one before; a row that does not fit in the buffer is refused. -/
def copyRows {size : Nat} (pitch start : Nat) :
    List (List UInt8) → Block size → Option (Block size)
  | [], buffer => some buffer
  | row :: rest, buffer =>
    (buffer.write? start row).bind (copyRows pitch (start + pitch) rest)

/-- Puts the picture of a screen into a buffer whose rows begin `pitch` bytes apart. -/
def copyTo {size : Nat} (screen : Screen) (pitch : Nat) (buffer : Block size) :
    Option (Block size) :=
  copyRows pitch 0 ((List.range Screen.height).map (row screen)) buffer

/-- The row at height `y` of a buffer whose rows begin `pitch` bytes apart. -/
def rowOf? {size : Nat} (buffer : Block size) (pitch y : Nat) : Option (List UInt8) :=
  buffer.read? (y * pitch) rowSize

/-- A row has 192 bytes. -/
theorem length_row (screen : Screen) (y : Nat) : (row screen y).length = rowSize := by
  simp only [row, pixelBytes, List.length_flatMap, List.length_replicate, List.map_const',
    List.sum_replicate_nat, List.length_range]
  rfl

/-- A picture has 6144 bytes. -/
theorem length_ofScreen (screen : Screen) : (ofScreen screen).length = 6144 := by
  simp only [ofScreen, List.length_flatMap, length_row, List.map_const',
    List.sum_replicate_nat, List.length_range]
  rfl

end Chip8.Texture
