import Chip8.Proofs.Decoding
import Chip8.Proofs.Drawing
import Chip8.Proofs.Effects
import Chip8.Proofs.PackedScreen

/-!
# How often a sprite hits a point

The effect of a sprite, said on the pairs of a row and a bit of it.

* `Screen.hits`: how many of these pairs stand for a set bit that comes to lie on a point, around
  the edges of the screen.
* `hits_eq_count`: the points under a sprite, as drawing goes through them, are as many.
* `hits_decide_drawing`: so a point is flipped if it is hit an odd number of times, and the flag
  tells whether a point was hit that was lit by then. For a sprite that is no taller than the screen,
  which is every sprite that an instruction draws, it tells whether a point went dark.
-/

namespace Chip8.Screen

/-- How many set bits of a sprite come to lie on a point: bit `b` of row `r`, counted from the left
and from the top, lies `b` columns and `r` lines from the sprite's corner. -/
def hits (x y : Nat) (sprite : List UInt8) (column line : Nat) : Nat :=
  ((Finset.range sprite.length ×ˢ Finset.range 8).filter fun place =>
    sprite.getD place.1 0 &&& 0x80 >>> UInt8.ofNat place.2 ≠ 0 ∧
      (y + place.1) % 32 = line ∧ (x + place.2) % 64 = column).card

/-- A bit of a row is set exactly when it is left by the mask for its place. -/
theorem and_mask_ne_zero_iff (bits : UInt8) {bit : Nat} (hbit : bit < 8) :
    bits &&& 0x80 >>> UInt8.ofNat bit ≠ 0 ↔ bits.toNat.testBit (7 - bit) = true := by
  rw [testBit_eq_getMsbD bits hbit, ← Checked.and_mask_bne_zero bits hbit, bne_iff_ne]

/-- A row hits a point as often as the point lies under it. -/
theorem card_filter_eq_count_rowPoints (x y : Nat) (bits : UInt8) (point : Point) :
    ((Finset.range 8).filter fun bit => bits &&& 0x80 >>> UInt8.ofNat bit ≠ 0 ∧
      y % 32 = point.2.val ∧ (x + bit) % 64 = point.1.val).card =
        (rowPoints x y bits).count point := by
  have hcard (p : Nat → Prop) [DecidablePred p] :
      ((Finset.range 8).filter p).card = (List.range 8).countP fun bit => decide (p bit) := by
    rw [List.countP_eq_length_filter]
    rfl
  rw [hcard, rowPoints, setBits, List.count, List.countP_map, List.countP_filter]
  apply List.countP_congr
  intro bit hmem
  have hset := and_mask_ne_zero_iff bits (List.mem_range.mp hmem)
  simp only [Function.comp_apply, decide_eq_true_eq, Bool.and_eq_true, beq_iff_eq, bitPoint,
    Prod.ext_iff, Fin.ext_iff, Fin.val_ofNat, hset]
  tauto

/-- The first row of a sprite hits a point, and so do the others one line further down. -/
theorem hits_cons (x y : Nat) (bits : UInt8) (rest : List UInt8) (column line : Nat) :
    hits x y (bits :: rest) column line =
      ((Finset.range 8).filter fun bit => bits &&& 0x80 >>> UInt8.ofNat bit ≠ 0 ∧
        y % 32 = line ∧ (x + bit) % 64 = column).card + hits x (y + 1) rest column line := by
  unfold hits
  -- Row `r + 1` of the sprite is row `r` of the rest, one line further down.
  rw [Finset.card_filter, Finset.card_filter, Finset.card_filter, Finset.sum_product,
    Finset.sum_product, List.length_cons, Finset.sum_range_succ', Nat.add_comm]
  simp [Nat.add_assoc, Nat.add_comm 1]

/-- **A sprite hits a point as often as the point lies under it.** -/
theorem hits_eq_count (x y : Nat) (sprite : List UInt8) (point : Point) :
    hits x y sprite point.1 point.2 = (spritePoints x y sprite).count point := by
  induction sprite generalizing y with
  | nil => rfl
  | cons bits rest ih =>
    rw [hits_cons, card_filter_eq_count_rowPoints, ih, spritePoints, List.count_append]

/-! ## What hits do -/

/-- A drawn sprite flips a pixel exactly when it hits it an odd number of times. -/
theorem pixel_draw_eq_xor (screen : Screen) (x y : Nat) (sprite : List UInt8) {column line : Nat}
    (hcolumn : column < 64) (hline : line < 32) :
    (screen.draw x y sprite).1.pixel column line =
      (screen.pixel column line ^^ decide (hits x y sprite column line % 2 = 1)) := by
  have hlit := isLit_draw screen x y sprite (⟨column, hcolumn⟩, ⟨line, hline⟩)
  rw [← hits_eq_count] at hlit
  exact hlit

/-- There is such a point exactly when there is such a column and such a line. -/
theorem exists_point_iff {p : Nat → Nat → Prop} :
    (∃ point : Point, p point.1 point.2) ↔ ∃ column < 64, ∃ line < 32, p column line := by
  constructor
  · rintro ⟨⟨column, line⟩, h⟩
    exact ⟨column, column.isLt, line, line.isLt, h⟩
  · rintro ⟨column, hcolumn, line, hline, h⟩
    exact ⟨(⟨column, hcolumn⟩, ⟨line, hline⟩), h⟩

/-- A sprite hits a lit pixel exactly when it hits a pixel that was lit before, or hits one twice. -/
theorem draw_hit_iff_hits (screen : Screen) (x y : Nat) (sprite : List UInt8) :
    (screen.draw x y sprite).2 = true ↔ ∃ column < 64, ∃ line < 32,
      (screen.pixel column line = true ∧ 1 ≤ hits x y sprite column line) ∨
        2 ≤ hits x y sprite column line := by
  rw [draw_hit_iff, ← exists_point_iff]
  simp only [hits_eq_count]
  rfl

/-- A sprite no taller than the screen hits a lit pixel exactly when a pixel goes dark. -/
theorem draw_hit_iff_pixel_goes_dark {screen : Screen} {x y : Nat} {sprite : List UInt8}
    (hsize : sprite.length ≤ 32) :
    (screen.draw x y sprite).2 = true ↔ ∃ column < 64, ∃ line < 32,
      screen.pixel column line = true ∧ (screen.draw x y sprite).1.pixel column line = false := by
  rw [draw_hit_iff_goes_dark hsize, ← exists_point_iff]
  rfl

end Chip8.Screen

namespace Chip8

/-- A sprite that an instruction draws sets VF to 1 if a pixel went dark, and otherwise to 0. -/
theorem State.get_drawSprite_flag (state : State) (x y : Register) {sprite : List UInt8}
    (hsize : sprite.length ≤ 32) :
    ((state.drawSprite x y sprite).v.get 0xF = 1 ∨ (state.drawSprite x y sprite).v.get 0xF = 0) ∧
      ((state.drawSprite x y sprite).v.get 0xF = 1 ↔ ∃ column < 64, ∃ line < 32,
        state.screen.pixel column line = true ∧
          (state.drawSprite x y sprite).screen.pixel column line = false) := by
  have hflag : (state.drawSprite x y sprite).v.get 0xF =
      (state.screen.draw (state.v.get x).toNat (state.v.get y).toNat sprite).2.toUInt8 := by
    rw [drawSprite, Registers.get_put, if_pos rfl]
  have hscreen : (state.drawSprite x y sprite).screen =
      (state.screen.draw (state.v.get x).toNat (state.v.get y).toNat sprite).1 :=
    rfl
  rw [hscreen, ← Screen.draw_hit_iff_pixel_goes_dark hsize, hflag]
  cases (state.screen.draw (state.v.get x).toNat (state.v.get y).toNat sprite).2 <;>
    decide

/-- An instruction of family D draws if its sprite lies in memory. -/
theorem execute_of_family_D {state : State} {op : Opcode} (input : Input)
    (hfamily : op.family = 0xD) (hin : state.i.toNat + op.n.val ≤ 4096) :
    ∃ sprite, state.memory.read state.i op.n.val = .ok sprite ∧ sprite.length ≤ 32 ∧
      (Instruction.decode op).execute state input = .ok (state.drawSprite op.x op.y sprite) := by
  have hread := state.memory.read_of_le hin
  have hlength := Memory.length_of_read_eq_ok hread
  refine ⟨_, hread, by omega, ?_⟩
  rw [Instruction.decode_of_family_D hfamily]
  simp only [Instruction.execute, hread]
  rfl

/-- **What a sprite does to each pixel, and what its flag says.** Drawing flips a pixel exactly if an
odd number of the sprite's set bits comes to lie on it, around the edges of the screen, and hits a
lit pixel exactly if a set bit lies on a pixel that was lit before or two of them lie on the same;
whether whole rows are drawn or single bits in the bytes of the screen. For a sprite of at most 32
rows this means that some pixel was lit and is dark now. So every instruction of family D whose
sprite lies in memory draws it, and sets VF to 1 in just this case and otherwise to 0. -/
theorem hits_decide_drawing (screen : Screen) (x y : Nat) (sprite : List UInt8) :
    (∃ drawn hit, screen.draw x y sprite = (drawn, hit) ∧
      Checked.draw? screen x y sprite = some (drawn, hit) ∧
      (∀ column < 64, ∀ line < 32, drawn.pixel column line =
        (screen.pixel column line ^^ decide (Screen.hits x y sprite column line % 2 = 1))) ∧
      (hit = true ↔ ∃ column < 64, ∃ line < 32,
        (screen.pixel column line = true ∧ 1 ≤ Screen.hits x y sprite column line) ∨
          2 ≤ Screen.hits x y sprite column line) ∧
      (sprite.length ≤ 32 → (hit = true ↔ ∃ column < 64, ∃ line < 32,
        screen.pixel column line = true ∧ drawn.pixel column line = false))) ∧
      ∀ (state : State) (input : Input) (op : Opcode), op.family = 0xD →
        state.i.toNat + op.n.val ≤ 4096 →
        ∃ rows after, state.memory.read state.i op.n.val = .ok rows ∧
          (Instruction.decode op).execute state input = .ok after ∧
          after.screen =
            (state.screen.draw (state.v.get op.x).toNat (state.v.get op.y).toNat rows).1 ∧
          (after.v.get 0xF = 1 ∨ after.v.get 0xF = 0) ∧
          (after.v.get 0xF = 1 ↔ ∃ column < 64, ∃ line < 32,
            state.screen.pixel column line = true ∧ after.screen.pixel column line = false) := by
  refine ⟨⟨_, _, rfl, Checked.draw?_eq screen x y sprite, ?_, ?_, ?_⟩, ?_⟩
  · intro column hcolumn line hline
    exact Screen.pixel_draw_eq_xor screen x y sprite hcolumn hline
  · exact Screen.draw_hit_iff_hits screen x y sprite
  · exact Screen.draw_hit_iff_pixel_goes_dark
  · intro state input op hfamily hin
    obtain ⟨rows, hread, hsize, hexecute⟩ := execute_of_family_D input hfamily hin
    exact ⟨rows, _, hread, hexecute, rfl, State.get_drawSprite_flag state op.x op.y hsize⟩

/-- A glyph around the corner of the screen whose upper edge meets a lit pixel there: the pixel goes
dark, and VF says so. A column of 33 rows on the blank screen meets its own first row: its flag is
set although no pixel was lit before. -/
theorem hits_decide_drawing_corner :
    let screen := (Screen.blank.drawRow 1 31 0x80).1
    let corner : Registers := Registers.put (Registers.put (Vector.replicate 16 0) 1 254) 2 255
    let state : State := { screen, i := 0x50, v := corner }
    let zero : List UInt8 := [0xF0, 0x90, 0x90, 0x90, 0xF0]
    let column := List.replicate 33 0x80
    (screen.pixel 1 31 = true ∧ (screen.draw 254 255 zero).1.pixel 1 31 = false ∧
      (screen.draw 254 255 zero).2 = true) ∧
      (∃ after, (Instruction.decode ⟨0xD125⟩).execute state { keyboard := Keypad.empty.keyboard } =
        .ok after ∧ after.v.get 0xF = 1) ∧
      Screen.hits 254 255 column 62 31 = 2 ∧
      (Screen.blank.draw 254 255 column).2 = true ∧
      (Screen.blank.draw 254 255 column).1.pixel 62 31 = false := by
  intro screen corner state zero column
  have hcorner : screen.pixel 1 31 = true ∧ Screen.hits 254 255 zero 1 31 = 1 := by
    decide +kernel
  have htwice : Screen.hits 254 255 column 62 31 = 2 := by
    decide +kernel
  obtain ⟨hlit, honce⟩ := hcorner
  obtain ⟨⟨drawn, hit, hdraw, -, hpixels, -, hdark⟩, hinstruction⟩ :=
    hits_decide_drawing screen 254 255 zero
  obtain ⟨⟨drawn', hit', hdraw', -, hpixels', hhit', -⟩, -⟩ :=
    hits_decide_drawing Screen.blank 254 255 column
  obtain ⟨rows, after, hread, hexecute, hscreen, -, hflag⟩ :=
    hinstruction state { keyboard := Keypad.empty.keyboard } ⟨0xD125⟩ (by decide) (by decide)
  have hgone : drawn.pixel 1 31 = false := by
    rw [hpixels 1 (by decide) 31 (by decide), hlit, honce]
    rfl
  have hzero : state.memory.read 0x50 5 = .ok zero := by
    decide +kernel
  have hrows : rows = zero := by
    cases hread.symm.trans hzero
    rfl
  refine ⟨⟨hlit, ?_, ?_⟩, ⟨after, hexecute, ?_⟩, htwice, ?_, ?_⟩
  · rw [hdraw, hgone]
  · rw [hdraw]
    exact (hdark (by decide)).mpr ⟨1, by decide, 31, by decide, hlit, hgone⟩
  · refine hflag.mpr ⟨1, by decide, 31, by decide, hlit, ?_⟩
    rw [hscreen, hrows]
    exact (congrArg (fun result => result.1.pixel 1 31) hdraw).trans hgone
  · rw [hdraw']
    exact hhit'.mpr ⟨62, by decide, 31, by decide, .inr (Nat.le_of_eq htwice.symm)⟩
  · rw [hdraw', hpixels' 62 (by decide) 31 (by decide), htwice]
    simp

end Chip8
