import Chip8.Proofs.Drawing

/-!
# The screen as bytes

Drawing flips whole rows of 64 pixels. Here a sprite is drawn bit by bit, and each pixel is looked
up in the byte that holds it: the byte `column / 8` of the eight bytes of a line.

* `Checked.flip?`: flips the pixels of a byte of the screen, if there is such a byte.
* `Checked.draw?`: draws a sprite, as long as every byte that it touches is there.
* `Checked.draw?_eq`: every byte is there, and the sprite is drawn as whole rows draw it.
-/

namespace Chip8.Checked

open Screen (bitPoint)

/-- The pixel of a column in the byte that holds it. -/
def mask (column : Nat) : UInt8 :=
  0x80 >>> UInt8.ofNat (column % 8)

/-- The pixels of a row that lie in one of its bytes. -/
def spread (place : Nat) (pixels : UInt8) : BitVec 64 :=
  pixels.toBitVec.setWidth 64 <<< (8 * (7 - place))

/-- Flips the pixels of a byte of a line, if there is such a line and such a byte, and tells whether
one of them was lit. -/
def flip? (screen : Screen) (line place : Nat) (pixels : UInt8) : Option (Screen × Bool) := do
  let row ← screen.rows[line]?
  let byte ← (Screen.rowBytes row)[place]?
  some ({ rows := screen.rows.setIfInBounds line (row ^^^ spread place pixels) },
    byte &&& pixels != 0)

/-- Flips the pixels under some bits of a sprite row whose corner lies in a column and on a line,
one bit after the other. -/
def drawBits? (screen : Screen) (column line : Nat) : List Nat → Option (Screen × Bool)
  | [] => some (screen, false)
  | bit :: rest => do
    let x := (column + bit) % Screen.width
    let (screen, hit) ← flip? screen (line % Screen.height) (x / 8) (mask x)
    let (screen, hitAfter) ← drawBits? screen column line rest
    some (screen, hit || hitAfter)

/-- Draws a sprite, if every byte of the screen that it touches is there. -/
def draw? (screen : Screen) (column line : Nat) : List UInt8 → Option (Screen × Bool)
  | [] => some (screen, false)
  | bits :: rest => do
    let (screen, hit) ← drawBits? screen column line (Screen.setBits bits)
    let (screen, hitBelow) ← draw? screen column (line + 1) rest
    some (screen, hit || hitBelow)

/-! ## One pixel -/

/-- A bit of a byte is left by its mask exactly when it is set. -/
theorem and_mask_bne_zero (bits : UInt8) {bit : Nat} (hbit : bit < 8) :
    (bits &&& 0x80 >>> UInt8.ofNat bit != 0) = bits.toBitVec.getMsbD bit := by
  have hall : ∀ byte : BitVec 8, ∀ place : Fin 8,
      (UInt8.ofBitVec byte &&& 0x80 >>> UInt8.ofNat place.val != 0) = byte.getMsbD place.val := by
    decide +kernel
  exact hall bits.toBitVec ⟨bit, hbit⟩

/-- The bits of one byte of a row are eight of its columns. -/
theorem getMsbD_rowByte (row : BitVec 64) {place bit : Nat} (hplace : place < 8) (hbit : bit < 8) :
    (row.extractLsb' (8 * (7 - place)) 8).getMsbD bit = row.getMsbD (8 * place + bit) := by
  have hfits : 8 * (7 - place) + 8 - bit ≤ 64 := by omega
  have hcolumn : 64 - (8 * (7 - place) + 8 - bit) = 8 * place + bit := by omega
  rw [BitVec.getMsbD_extractLsb', decide_eq_true hbit, decide_eq_true hfits, hcolumn,
    Bool.true_and, Bool.true_and]

/-- A pixel of a byte is lit exactly when its column is set in the row. -/
theorem byte_mask_eq_getMsbD (row : BitVec 64) {column : Nat} (hcolumn : column < 64) :
    (UInt8.ofBitVec (row.extractLsb' (8 * (7 - column / 8)) 8) &&& mask column != 0) =
      row.getMsbD column := by
  have hbit : column % 8 < 8 := Nat.mod_lt _ (by decide)
  refine (and_mask_bne_zero _ hbit).trans ?_
  rw [getMsbD_rowByte row (by omega) hbit, Nat.div_add_mod]

/-- The mask of a column stands for that column of a row. -/
theorem spread_mask {column : Nat} (hcolumn : column < 64) :
    spread (column / 8) (mask column) = BitVec.twoPow 64 (63 - column) := by
  have hall : ∀ column : Fin 64,
      spread (column.val / 8) (mask column.val) = BitVec.twoPow 64 (63 - column.val) := by
    decide +kernel
  exact hall ⟨column, hcolumn⟩

/-- The byte of a point is there, and flipping the point's pixel in it flips the point and tells
whether it was lit. -/
theorem flip?_eq (screen : Screen) (point : Point) :
    ∃ flipped,
      flip? screen point.2.val (point.1.val / 8) (mask point.1.val) =
          some (flipped, screen.isLit point) ∧
        ∀ other, flipped.isLit other = (screen.isLit other ^^ decide (other = point)) := by
  obtain ⟨⟨column, hcolumn⟩, ⟨line, hline⟩⟩ := point
  have hrow : screen.rows[line]? = some (screen.row line) := by
    rw [Screen.row]
    simp only [Nat.mod_eq_of_lt hline]
    exact Vector.getElem?_eq_getElem hline
  have hbyte : (Screen.rowBytes (screen.row line))[column / 8]? =
      some (UInt8.ofBitVec ((screen.row line).extractLsb' (8 * (7 - column / 8)) 8)) := by
    rw [Screen.rowBytes, List.getElem?_map, List.getElem?_range (by change _ < 8; omega)]
    rfl
  have hlit : screen.isLit (⟨column, hcolumn⟩, ⟨line, hline⟩) =
      (screen.row line).getMsbD column :=
    Screen.isLit_eq_getMsbD (Nat.mod_eq_of_lt hline).symm
  refine ⟨⟨screen.rows.setIfInBounds line
    (screen.row line ^^^ spread (column / 8) (mask column))⟩, ?_, ?_⟩
  · simp only [flip?, hrow, hbyte, Option.bind_eq_bind, Option.bind_some]
    rw [byte_mask_eq_getMsbD _ hcolumn, hlit]
  · rintro ⟨⟨x, hx⟩, ⟨y, hy⟩⟩
    rw [spread_mask hcolumn]
    simp only [Screen.isLit, Screen.pixel, Screen.row, Vector.getElem_setIfInBounds,
      Nat.mod_eq_of_lt hx, Nat.mod_eq_of_lt hy, Nat.mod_eq_of_lt hline, Prod.mk.injEq, Fin.mk.injEq]
    by_cases hsame : line = y
    · subst hsame
      have hcolumn' : x = 64 - (63 - column) - 1 ↔ x = column := by omega
      simp only [if_true, BitVec.getMsbD_xor, BitVec.getMsbD_twoPow, hcolumn',
        decide_eq_true (show 63 - column < 64 by omega), Bool.true_and, and_true]
    · have hother : ¬(x = column ∧ y = line) := fun h => hsame h.2.symm
      rw [if_neg hsame, decide_eq_false hother, Bool.xor_false]

/-! ## A sprite -/

/-- The bytes under some bits of a sprite row are there. Bits on different points flip these points
and hit a lit pixel exactly when one of the points is lit. -/
theorem drawBits?_eq (screen : Screen) (column line : Nat) {bits : List Nat}
    (hnodup : (bits.map (bitPoint column line)).Nodup) :
    ∃ drawn hit, drawBits? screen column line bits = some (drawn, hit) ∧
      (∀ point, drawn.isLit point =
        (screen.isLit point ^^ decide (point ∈ bits.map (bitPoint column line)))) ∧
      (hit = true ↔ ∃ point ∈ bits.map (bitPoint column line), screen.isLit point = true) := by
  induction bits generalizing screen with
  | nil => exact ⟨screen, false, rfl, by simp, by simp⟩
  | cons bit rest ih =>
    obtain ⟨hfresh, hrest⟩ := List.nodup_cons.mp hnodup
    obtain ⟨flipped, hflip, hlit⟩ := flip?_eq screen (bitPoint column line bit)
    obtain ⟨drawn, hit, hdrawn, hpoints, hhit⟩ := ih flipped hrest
    rw [List.map_cons]
    refine ⟨drawn, screen.isLit (bitPoint column line bit) || hit, ?_, ?_, ?_⟩
    · change flip? screen (line % Screen.height) ((column + bit) % Screen.width / 8)
        (mask ((column + bit) % Screen.width)) = _ at hflip
      simp only [drawBits?, hflip, hdrawn, Option.bind_eq_bind, Option.bind_some]
    · intro point
      rw [hpoints, hlit, Bool.xor_assoc]
      by_cases hsame : point = bitPoint column line bit
      · subst hsame
        simp [hfresh]
      · simp [hsame]
    · rw [Bool.or_eq_true, hhit, List.exists_mem_cons_iff]
      apply or_congr_right
      apply exists_congr
      intro point
      apply and_congr_right
      -- The first bit has flipped none of the points under the rest.
      intro hmem
      have hother : point ≠ bitPoint column line bit := fun h => hfresh (h ▸ hmem)
      rw [hlit, decide_eq_false hother, Bool.xor_false]

/-- **Every byte under a sprite is there**, and the sprite is drawn bit by bit as it is drawn row by
row. -/
@[simp] theorem draw?_eq (screen : Screen) (column line : Nat) (sprite : List UInt8) :
    draw? screen column line sprite = some (screen.draw column line sprite) := by
  induction sprite generalizing screen line with
  | nil => rfl
  | cons bits rest ih =>
    obtain ⟨drawn, hit, hdrawn, hpoints, hhit⟩ :=
      drawBits?_eq screen column line (Screen.nodup_rowPoints column line bits)
    have hscreen : drawn = (screen.drawRow column line bits).1 := by
      apply Screen.ext_isLit
      intro point
      rw [hpoints, Screen.isLit_drawRow]
      rfl
    have hflag : hit = (screen.drawRow column line bits).2 := by
      rw [Bool.eq_iff_iff, hhit, Screen.drawRow_hit_iff]
      rfl
    simp only [draw?, hdrawn, Option.bind_eq_bind, Option.bind_some, ih, Screen.draw, hscreen,
      hflag]

end Chip8.Checked
