/-!
# The screen

64 by 32 pixels, each lit or dark. A row is a word of 64 bits, its leftmost pixel the most
significant one.

* `Screen.pixel`: whether a point is lit; the screen wraps around at both edges.
* `Screen.draw`: flips the pixels under a sprite, and tells whether a lit one was hit.
* `Screen.rowBytes`: a row packed into eight bytes.

A sprite is a list of rows of eight pixels, from top to bottom, each row a byte. It may be taller
than the screen: a row that comes around to the top meets what the sprite's earlier rows left.
-/

namespace Chip8

/-- The pixels of a screen. -/
structure Screen where
  /-- The rows, from top to bottom. -/
  rows : Vector (BitVec 64) 32
  deriving DecidableEq

namespace Screen

/-- The number of pixels of a row. -/
abbrev width : Nat := 64

/-- The number of rows. -/
abbrev height : Nat := 32

/-- The number of bytes of a packed row. -/
abbrev rowSize : Nat := width / 8

/-- The screen with every pixel dark. -/
def blank : Screen where
  rows := Vector.replicate height 0

instance : Inhabited Screen := ⟨blank⟩

/-- The row at height `y`, counted around the screen. -/
def row (screen : Screen) (y : Nat) : BitVec 64 :=
  screen.rows[y % 32]

/-- Whether the pixel in column `x` of row `y` is lit, both counted around the screen. -/
def pixel (screen : Screen) (x y : Nat) : Bool :=
  (screen.row y).getMsbD (x % 64)

/-- Whether every pixel is dark. -/
def isBlank (screen : Screen) : Bool :=
  screen.rows.all (· == 0)

/-- A row packed into eight bytes, the leftmost pixel in the most significant bit of the first. -/
def rowBytes (row : BitVec 64) : List UInt8 :=
  (List.range rowSize).map fun k => UInt8.ofBitVec (row.extractLsb' (8 * (7 - k)) 8)

/-! ## Drawing -/

/-- The pixels of a whole row that eight pixels cover when the first of them lies in column `x`. -/
def cover (x : Nat) (bits : UInt8) : BitVec 64 :=
  (bits.toBitVec ++ (0 : BitVec 56)).rotateRight x

/-- Flips the pixels of one sprite row, and tells whether one of them was lit. -/
def drawRow (screen : Screen) (x y : Nat) (bits : UInt8) : Screen × Bool :=
  let covered := cover x bits
  ({ rows := screen.rows.set (y % 32) (screen.row y ^^^ covered) (Nat.mod_lt _ (by decide)) },
    screen.row y &&& covered != 0)

/-- Flips the pixels of a sprite whose top left corner lies at `(x, y)`, and tells whether any of
them was lit when its turn came. -/
def draw (screen : Screen) (x y : Nat) : List UInt8 → Screen × Bool
  | [] => (screen, false)
  | bits :: rest =>
    let (screen, hit) := screen.drawRow x y bits
    let (screen, hitBelow) := screen.draw x (y + 1) rest
    (screen, hit || hitBelow)

/-! ## Pixels -/

/-- Every pixel of the blank screen is dark. -/
@[simp] theorem pixel_blank (x y : Nat) : blank.pixel x y = false := by
  simp [pixel, row, blank]

/-- A sprite row covers the column that lies `k` to the right of its own, around the edge, exactly
if its `k`-th bit is set. -/
theorem getMsbD_cover (x : Nat) (bits : UInt8) {column : Nat} (h : column < 64) :
    (cover x bits).getMsbD column = bits.toBitVec.getMsbD ((column + 64 - x % 64) % 64) := by
  have hx : x % 64 < 64 := Nat.mod_lt _ (by decide)
  have wide (k : Nat) :
      (bits.toBitVec ++ (0 : BitVec 56)).getMsbD k = bits.toBitVec.getMsbD k := by
    rw [BitVec.getMsbD_append]
    split
    · next hk => rw [BitVec.getMsbD_of_ge bits.toBitVec k hk]; exact BitVec.getMsbD_zero
    · rfl
  rw [cover, BitVec.getMsbD_rotateRight, decide_eq_true h, Bool.true_and, wide, wide]
  split
  · congr 2
    omega
  · congr 1
    omega

/-- A sprite row flips the pixels it covers in its own row, and no others. -/
theorem pixel_drawRow (screen : Screen) (x y : Nat) (bits : UInt8) (column line : Nat) :
    (screen.drawRow x y bits).1.pixel column line =
      (screen.pixel column line ^^
        (decide (line % 32 = y % 32) && (cover x bits).getMsbD (column % 64))) := by
  simp only [drawRow, pixel, row, Vector.getElem_set]
  by_cases h : line % 32 = y % 32
  · rw [if_pos h.symm, BitVec.getMsbD_xor]
    simp only [h, decide_true, Bool.true_and]
  · rw [if_neg (Ne.symm h)]
    simp only [h, decide_false, Bool.false_and, Bool.xor_false]

/-- Two screens with the same pixels are the same. -/
theorem ext_pixel {left right : Screen}
    (h : ∀ x < 64, ∀ y < 32, left.pixel x y = right.pixel x y) : left = right := by
  obtain ⟨left⟩ := left
  obtain ⟨right⟩ := right
  congr 1
  apply Vector.ext
  intro y hy
  apply BitVec.eq_of_getMsbD_eq
  intro x hx
  have hpixel := h x hx y hy
  simp only [pixel, row, Nat.mod_eq_of_lt hx, Nat.mod_eq_of_lt hy] at hpixel
  exact hpixel

end Screen

end Chip8
