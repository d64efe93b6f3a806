import Chip8.Screen
import Mathlib

/-!
# The points under a sprite

Drawing works on whole rows of the screen. Here it is read point by point.

* `bitPoint`, `rowPoints`, `spritePoints`: the points that the set bits of a sprite lie on, around
  the edges of the screen; a point stands there once for each bit that lies on it.
* `isLit_draw`: drawing flips a point once for each bit on it.
* `draw_hit_iff`: a lit pixel is hit exactly when a bit lies on a lit point, or two on the same.
* `nodup_spritePoints`: a sprite no taller than the screen meets no point twice, so that for such a
  sprite a lit pixel is hit exactly when some point goes dark (`draw_hit_iff_goes_dark`).
-/

namespace Chip8

/-- A point of the screen: its column and its row. -/
abbrev Point := Fin 64 × Fin 32

namespace Screen

/-- Whether the pixel at a point is lit. -/
def isLit (screen : Screen) (point : Point) : Bool :=
  screen.pixel point.1 point.2

/-- Every point of the blank screen is dark. -/
@[simp] theorem isLit_blank (point : Point) : blank.isLit point = false :=
  pixel_blank _ _

/-- Two screens on which the same points are lit are the same. -/
theorem ext_isLit {left right : Screen} (h : ∀ point, left.isLit point = right.isLit point) :
    left = right :=
  ext_pixel fun x hx y hy => h (⟨x, hx⟩, ⟨y, hy⟩)

/-- The point under a bit of a sprite row whose leftmost bit lies in column `x`. -/
def bitPoint (x y bit : Nat) : Point :=
  (Fin.ofNat 64 (x + bit), Fin.ofNat 32 y)

/-- The bits of a sprite row that are set, counted from the left. -/
def setBits (bits : UInt8) : List Nat :=
  (List.range 8).filter fun bit => bits.toNat.testBit (7 - bit)

/-- The points under the set bits of one sprite row, whose leftmost bit lies in column `x`. -/
def rowPoints (x y : Nat) (bits : UInt8) : List Point :=
  (setBits bits).map (bitPoint x y)

/-- The points under the set bits of a sprite, row by row. -/
def spritePoints (x y : Nat) : List UInt8 → List Point
  | [] => []
  | bits :: rest => rowPoints x y bits ++ spritePoints x (y + 1) rest

/-! ## One row -/

/-- The bits of a byte, counted from the left. -/
theorem testBit_eq_getMsbD (bits : UInt8) {bit : Nat} (hbit : bit < 8) :
    bits.toNat.testBit (7 - bit) = bits.toBitVec.getMsbD bit := by
  rw [BitVec.getMsbD, decide_eq_true hbit, Bool.true_and]
  rfl

/-- A point lies under a sprite row exactly when it lies on the row's line and the bit above it is
set. -/
theorem mem_rowPoints {x y : Nat} {bits : UInt8} {point : Point} :
    point ∈ rowPoints x y bits ↔
      point.2.val = y % 32 ∧
        bits.toBitVec.getMsbD ((point.1.val + 64 - x % 64) % 64) = true := by
  obtain ⟨⟨column, hcolumn⟩, ⟨line, hline⟩⟩ := point
  simp only [rowPoints, setBits, bitPoint, List.mem_map, List.mem_filter, List.mem_range, Prod.mk.injEq,
    Fin.ext_iff, Fin.val_ofNat]
  constructor
  · rintro ⟨bit, ⟨hbit, hset⟩, hx, hy⟩
    have hplace : (column + 64 - x % 64) % 64 = bit := by omega
    rw [hplace, ← testBit_eq_getMsbD bits hbit]
    exact ⟨hy.symm, hset⟩
  · rintro ⟨hy, hset⟩
    have hbit := BitVec.lt_of_getMsbD hset
    refine ⟨_, ⟨hbit, (testBit_eq_getMsbD bits hbit).trans hset⟩, ?_, hy.symm⟩
    omega

/-- No point lies twice under one sprite row. -/
theorem nodup_rowPoints (x y : Nat) (bits : UInt8) : (rowPoints x y bits).Nodup := by
  refine List.Nodup.map_on ?_ (List.nodup_range.filter _)
  intro first hfirst second hsecond heq
  have hfirst' := List.mem_range.mp (List.mem_of_mem_filter hfirst)
  have hsecond' := List.mem_range.mp (List.mem_of_mem_filter hsecond)
  have hcolumns := congrArg (fun point : Point => point.1.val) heq
  simp only [bitPoint, Fin.val_ofNat] at hcolumns
  omega

/-- A sprite row covers a point exactly when the point lies under it. -/
theorem cover_eq_decide_mem (x y : Nat) (bits : UInt8) (point : Point) :
    (decide (point.2.val % 32 = y % 32) && (cover x bits).getMsbD (point.1.val % 64)) =
      decide (point ∈ rowPoints x y bits) := by
  rw [Nat.mod_eq_of_lt point.1.isLt, Nat.mod_eq_of_lt point.2.isLt,
    getMsbD_cover x bits point.1.isLt, Bool.eq_iff_iff]
  simp only [Bool.and_eq_true, decide_eq_true_eq]
  exact mem_rowPoints.symm

/-- A sprite row flips the points under it, and no others. -/
theorem isLit_drawRow (screen : Screen) (x y : Nat) (bits : UInt8) (point : Point) :
    (screen.drawRow x y bits).1.isLit point =
      (screen.isLit point ^^ decide (point ∈ rowPoints x y bits)) := by
  rw [isLit, pixel_drawRow, cover_eq_decide_mem]
  rfl

/-- A point is lit exactly when its column is set in the row that it lies on. -/
theorem isLit_eq_getMsbD {screen : Screen} {y : Nat} {point : Point}
    (hline : point.2.val = y % 32) :
    screen.isLit point = (screen.row y).getMsbD point.1.val := by
  obtain ⟨column, ⟨line, hlt⟩⟩ := point
  obtain rfl : line = y % 32 := hline
  simp only [isLit, pixel, row, Nat.mod_mod, Nat.mod_eq_of_lt column.isLt]

/-- A row is not dark exactly when one of its columns is set. -/
theorem bne_zero_iff {row : BitVec 64} :
    (row != 0) = true ↔ ∃ column : Fin 64, row.getMsbD column.val = true := by
  rw [bne_iff_ne]
  constructor
  · intro hne
    by_contra hdark
    apply hne
    apply BitVec.eq_of_getMsbD_eq
    intro column hcolumn
    rw [Bool.eq_false_iff.mpr fun hset => hdark ⟨⟨column, hcolumn⟩, hset⟩]
    exact BitVec.getMsbD_zero.symm
  · rintro ⟨column, hset⟩ rfl
    rw [BitVec.ofNat_eq_ofNat, BitVec.getMsbD_zero] at hset
    cases hset

/-- A sprite row hits a lit pixel exactly when a lit point lies under it. -/
theorem drawRow_hit_iff {screen : Screen} {x y : Nat} {bits : UInt8} :
    (screen.drawRow x y bits).2 = true ↔
      ∃ point ∈ rowPoints x y bits, screen.isLit point = true := by
  refine bne_zero_iff.trans ?_
  constructor
  · rintro ⟨column, hcolumn⟩
    rw [BitVec.getMsbD_and, Bool.and_eq_true, getMsbD_cover x bits column.isLt] at hcolumn
    obtain ⟨hlit, hcovered⟩ := hcolumn
    refine ⟨(column, Fin.ofNat 32 y), mem_rowPoints.mpr ⟨rfl, hcovered⟩, ?_⟩
    rw [isLit_eq_getMsbD rfl]
    exact hlit
  · rintro ⟨⟨column, line⟩, hmem, hlit⟩
    obtain ⟨hline, hcovered⟩ := mem_rowPoints.mp hmem
    refine ⟨column, ?_⟩
    rw [isLit_eq_getMsbD hline] at hlit
    rw [BitVec.getMsbD_and, Bool.and_eq_true, getMsbD_cover x bits column.isLt]
    exact ⟨hlit, hcovered⟩

/-! ## A whole sprite -/

/-- A point lies on one of the sprite's lines. -/
theorem exists_line_of_mem {x y : Nat} {sprite : List UInt8} {point : Point}
    (hmem : point ∈ spritePoints x y sprite) :
    ∃ k < sprite.length, point.2.val = (y + k) % 32 := by
  induction sprite generalizing y with
  | nil => exact absurd hmem List.not_mem_nil
  | cons bits rest ih =>
    rcases List.mem_append.mp hmem with hrow | hrest
    · exact ⟨0, Nat.succ_pos _, (mem_rowPoints.mp hrow).1⟩
    · obtain ⟨k, hk, hline⟩ := ih hrest
      exact ⟨k + 1, Nat.succ_lt_succ hk, by rw [hline]; congr 1; omega⟩

/-- **No point lies twice under a sprite that is no taller than the screen.** -/
theorem nodup_spritePoints {x y : Nat} {sprite : List UInt8} (hsize : sprite.length ≤ 32) :
    (spritePoints x y sprite).Nodup := by
  induction sprite generalizing y with
  | nil => exact List.nodup_nil
  | cons bits rest ih =>
    rw [List.length_cons] at hsize
    refine (nodup_rowPoints x y bits).append (ih (by omega)) ?_
    intro point hrow hrest
    obtain ⟨k, hk, hline⟩ := exists_line_of_mem hrest
    have hfirst := (mem_rowPoints.mp hrow).1
    omega

/-- How often a point lies under a sprite is decided row by row. -/
theorem count_spritePoints_cons (x y : Nat) (bits : UInt8) (rest : List UInt8) (point : Point) :
    (spritePoints x y (bits :: rest)).count point =
      (if point ∈ rowPoints x y bits then 1 else 0) +
        (spritePoints x (y + 1) rest).count point := by
  rw [spritePoints, List.count_append, (nodup_rowPoints x y bits).count]

/-- **Drawing flips a point once for each set bit that lies on it.** -/
theorem isLit_draw (screen : Screen) (x y : Nat) (sprite : List UInt8) (point : Point) :
    (screen.draw x y sprite).1.isLit point =
      (screen.isLit point ^^ decide ((spritePoints x y sprite).count point % 2 = 1)) := by
  induction sprite generalizing screen y with
  | nil => simp [draw, spritePoints]
  | cons bits rest ih =>
    rw [draw, ih, isLit_drawRow, count_spritePoints_cons, Bool.xor_assoc]
    congr 1
    by_cases hrow : point ∈ rowPoints x y bits
    · rw [if_pos hrow, decide_eq_true hrow, Bool.true_xor, ← decide_not, decide_eq_decide]
      omega
    · rw [if_neg hrow, decide_eq_false hrow, Bool.false_xor, Nat.zero_add]

/-- **A sprite hits a lit pixel** exactly when a set bit lies on a lit point, or two set bits lie on
the same point. -/
theorem draw_hit_iff {screen : Screen} {x y : Nat} {sprite : List UInt8} :
    (screen.draw x y sprite).2 = true ↔
      ∃ point, (screen.isLit point = true ∧ 1 ≤ (spritePoints x y sprite).count point) ∨
        2 ≤ (spritePoints x y sprite).count point := by
  induction sprite generalizing screen y with
  | nil => simp [draw, spritePoints]
  | cons bits rest ih =>
    have hcases : (screen.draw x y (bits :: rest)).2 = true ↔
        ∃ point, (point ∈ rowPoints x y bits ∧ screen.isLit point = true) ∨
          ((screen.drawRow x y bits).1.isLit point = true ∧
              1 ≤ (spritePoints x (y + 1) rest).count point) ∨
            2 ≤ (spritePoints x (y + 1) rest).count point := by
      rw [draw, Bool.or_eq_true, drawRow_hit_iff, ih, ← exists_or]
    rw [hcases]
    apply exists_congr
    intro point
    rw [isLit_drawRow, count_spritePoints_cons]
    generalize (spritePoints x (y + 1) rest).count point = below
    -- The row's own bit on the point decides what the rows below meet there.
    by_cases hrow : point ∈ rowPoints x y bits
    · rw [if_pos hrow, decide_eq_true hrow, Bool.xor_true]
      cases screen.isLit point
      · simp only [hrow, Bool.not_false, true_and, Bool.false_eq_true, and_false, false_or,
          false_and]
        omega
      · simp only [hrow, true_and, true_or, true_iff]
        omega
    · rw [if_neg hrow, decide_eq_false hrow, Bool.xor_false, Nat.zero_add]
      simp only [hrow, false_and, false_or]

/-- **A sprite that is no taller than the screen hits a lit pixel exactly when a point goes
dark.** -/
theorem draw_hit_iff_goes_dark {screen : Screen} {x y : Nat} {sprite : List UInt8}
    (hsize : sprite.length ≤ 32) :
    (screen.draw x y sprite).2 = true ↔
      ∃ point, screen.isLit point = true ∧ (screen.draw x y sprite).1.isLit point = false := by
  rw [draw_hit_iff]
  apply exists_congr
  intro point
  have honce := List.nodup_iff_count_le_one.mp (nodup_spritePoints (x := x) (y := y) hsize) point
  rw [isLit_draw]
  generalize (spritePoints x y sprite).count point = count at honce ⊢
  cases screen.isLit point
  · simp only [Bool.false_eq_true, false_and, false_or, iff_false]
    omega
  · rw [Bool.true_xor, Bool.not_eq_false', decide_eq_true_eq]
    simp only [true_and]
    omega

end Screen

end Chip8
