import Chip8.Proofs.Drawing

/-!
# Drawing in another order

Whether a single sprite hits a lit pixel depends on what was drawn before it. What a whole list of
sprites leaves on the screen, and whether any of them hit a lit pixel, depends only on how often
each point lies under them.

* `Stamp`, `Screen.drawAll`: a sprite with its place, and a list of them drawn one after the other.
* `isLit_drawAll`, `drawAll_hit_iff`: the screen and the flag at the end, said on the number of set
  bits that lie on each point.
* `Stamp.rows`, `flatMap_points_rows`: the rows of a sprite as sprites of their own lie on the same
  points.
* `order_of_drawing_does_not_matter`: so sprites may be drawn in any order, or row by row, and
  drawing all of them again restores the screen.
-/

namespace Chip8

/-- A sprite and the place of its top left corner. -/
structure Stamp where
  /-- The column of the corner. -/
  x : UInt8
  /-- The line of the corner. -/
  y : UInt8
  /-- The rows of the sprite, from top to bottom. -/
  sprite : List UInt8
  deriving DecidableEq

namespace Stamp

/-- The rows of a sprite, each one a sprite of its own. Lines are counted modulo 256. -/
def rows (stamp : Stamp) : List Stamp :=
  stamp.sprite.mapIdx fun k bits =>
    { x := stamp.x, y := UInt8.ofNat (stamp.y.toNat + k), sprite := [bits] }

/-- The points under a sprite, once for each set bit that lies on them. -/
def points (stamp : Stamp) : List Point :=
  Screen.spritePoints stamp.x.toNat stamp.y.toNat stamp.sprite

end Stamp

namespace Screen

/-- Draws sprites one after the other, and tells whether any of them hit a lit pixel. -/
def drawAll (screen : Screen) : List Stamp → Screen × Bool
  | [] => (screen, false)
  | stamp :: rest =>
    let (screen, hit) := screen.draw stamp.x.toNat stamp.y.toNat stamp.sprite
    let (screen, hitLater) := screen.drawAll rest
    (screen, hit || hitLater)

/-! ## Sprite after sprite -/

/-- Two lists are drawn as the first one and then the second. -/
theorem drawAll_append (screen : Screen) (first second : List Stamp) :
    screen.drawAll (first ++ second) =
      (((screen.drawAll first).1.drawAll second).1,
        (screen.drawAll first).2 || ((screen.drawAll first).1.drawAll second).2) := by
  induction first generalizing screen with
  | nil => simp [drawAll]
  | cons stamp rest ih => simp [drawAll, ih, Bool.or_assoc]

/-- **Drawing flips a point once for each set bit that lies on it.** -/
theorem isLit_drawAll (screen : Screen) (stamps : List Stamp) (point : Point) :
    (screen.drawAll stamps).1.isLit point =
      (screen.isLit point ^^ decide ((stamps.flatMap Stamp.points).count point % 2 = 1)) := by
  induction stamps generalizing screen with
  | nil => simp [drawAll]
  | cons stamp rest ih =>
    rw [drawAll, ih, isLit_draw, List.flatMap_cons, List.count_append, Bool.xor_assoc]
    congr 1
    show (decide (stamp.points.count point % 2 = 1) ^^ _) = _
    generalize stamp.points.count point = first
    generalize (rest.flatMap Stamp.points).count point = later
    by_cases hfirst : first % 2 = 1
    · rw [decide_eq_true hfirst, Bool.true_xor, ← decide_not, decide_eq_decide]
      omega
    · rw [decide_eq_false hfirst, Bool.false_xor, decide_eq_decide]
      omega

/-- A point that is flipped by some bits and then by more meets a lit pixel among the first, or
among the others as the first have left it, exactly when it meets one among them all. -/
theorem hit_add_iff (lit : Bool) (first later : Nat) :
    ((lit = true ∧ 1 ≤ first) ∨ 2 ≤ first) ∨
        (((lit ^^ decide (first % 2 = 1)) = true ∧ 1 ≤ later) ∨ 2 ≤ later) ↔
      (lit = true ∧ 1 ≤ first + later) ∨ 2 ≤ first + later := by
  cases lit
  · simp only [Bool.false_eq_true, false_and, false_or, Bool.false_xor, decide_eq_true_eq]
    omega
  · simp only [true_and, Bool.true_xor, Bool.not_eq_true', decide_eq_false_iff_not]
    omega

/-- **Some sprite hits a lit pixel** exactly when a set bit lies on a lit point, or two set bits lie
on the same point, whatever the sprites that they belong to. -/
theorem drawAll_hit_iff {screen : Screen} {stamps : List Stamp} :
    (screen.drawAll stamps).2 = true ↔
      ∃ point, (screen.isLit point = true ∧ 1 ≤ (stamps.flatMap Stamp.points).count point) ∨
        2 ≤ (stamps.flatMap Stamp.points).count point := by
  induction stamps generalizing screen with
  | nil => simp [drawAll]
  | cons stamp rest ih =>
    rw [drawAll, Bool.or_eq_true, draw_hit_iff, ih, ← exists_or]
    apply exists_congr
    intro point
    rw [isLit_draw, List.flatMap_cons, List.count_append]
    exact hit_add_iff _ _ _

/-- **Sprites that lie on the same points do the same.** -/
theorem drawAll_eq_of_perm (screen : Screen) {first second : List Stamp}
    (hpoints : (first.flatMap Stamp.points).Perm (second.flatMap Stamp.points)) :
    screen.drawAll first = screen.drawAll second := by
  apply Prod.ext
  · apply ext_isLit
    intro point
    rw [isLit_drawAll, isLit_drawAll, hpoints.count_eq]
  · rw [Bool.eq_iff_iff, drawAll_hit_iff, drawAll_hit_iff]
    simp only [hpoints.count_eq]

/-! ## Row by row -/

/-- Lines are counted around the screen. -/
theorem rowPoints_eq_of_mod {x y line : Nat} (bits : UInt8) (hline : line % 32 = y % 32) :
    rowPoints x line bits = rowPoints x y bits := by
  unfold rowPoints
  apply List.map_congr_left
  intro bit _
  exact Prod.ext rfl (Fin.ext hline)

/-- Single rows, on lines that are those of a sprite around the screen, lie on the sprite's
points. -/
theorem flatMap_points_mapIdx {x : UInt8} {y : Nat} {line : Nat → UInt8} (sprite : List UInt8)
    (hline : ∀ k, (line k).toNat % 32 = (y + k) % 32) :
    (sprite.mapIdx fun k bits => { x, y := line k, sprite := [bits] : Stamp }).flatMap
        Stamp.points = spritePoints x.toNat y sprite := by
  induction sprite generalizing y line with
  | nil => rfl
  | cons bits rest ih =>
    have hrest : ∀ k, (line (k + 1)).toNat % 32 = (y + 1 + k) % 32 := by
      intro k
      rw [hline, Nat.add_assoc, Nat.add_comm 1 k]
    rw [List.mapIdx_cons, List.flatMap_cons, ih hrest]
    simp [Stamp.points, spritePoints, rowPoints_eq_of_mod bits (hline 0)]

/-- The rows of a sprite lie on its points. -/
theorem flatMap_points_rows (stamp : Stamp) : stamp.rows.flatMap Stamp.points = stamp.points := by
  apply flatMap_points_mapIdx
  intro k
  -- The screen is 32 lines high, which divides 256.
  rw [UInt8.toNat_ofNat']
  omega

/-! ## Sprites without a pixel -/

/-- A sprite row has no set bit exactly when it is zero. -/
theorem setBits_eq_nil_iff {bits : UInt8} : setBits bits = [] ↔ bits = 0 := by
  have hall : ∀ byte : BitVec 8, setBits (.ofBitVec byte) = [] ↔ UInt8.ofBitVec byte = 0 := by
    decide +kernel
  exact hall bits.toBitVec

/-- No point lies under a sprite exactly when all its rows are zero. -/
theorem spritePoints_eq_nil_iff {x y : Nat} {sprite : List UInt8} :
    spritePoints x y sprite = [] ↔ ∀ bits ∈ sprite, bits = 0 := by
  induction sprite generalizing y with
  | nil => simp [spritePoints]
  | cons bits rest ih => simp [spritePoints, rowPoints, setBits_eq_nil_iff, ih]

/-- Some point lies under some sprites exactly when a row of one of them is not zero. -/
theorem exists_count_pos_iff {stamps : List Stamp} :
    (∃ point, 1 ≤ (stamps.flatMap Stamp.points).count point) ↔
      ∃ stamp ∈ stamps, ∃ bits ∈ stamp.sprite, bits ≠ 0 := by
  have hpoints : (∃ point, 1 ≤ (stamps.flatMap Stamp.points).count point) ↔
      stamps.flatMap Stamp.points ≠ [] := by
    simp only [Nat.one_le_iff_ne_zero, ne_eq, List.count_eq_zero, not_not,
      List.eq_nil_iff_forall_not_mem, not_forall]
  rw [hpoints, ne_eq, List.flatMap_eq_nil_iff]
  simp [Stamp.points, spritePoints_eq_nil_iff]

/-! ## All together -/

/-- **The order of drawing does not matter.** A list of sprites and every list with the same sprites
in another order leave the same screen, and in both some sprite hits a lit pixel or in neither; so
do lists in which one sprite stands in for its single rows, wherever these come. Drawing the whole
list twice restores the screen, and one of all those sprites hits a lit pixel exactly if some sprite
has a row that is not zero. -/
theorem order_of_drawing_does_not_matter (screen : Screen) (stamps : List Stamp) :
    (∀ other : List Stamp, other.Perm stamps → screen.drawAll other = screen.drawAll stamps) ∧
      (∀ before stamp after, stamps = before ++ stamp :: after →
        ∀ other : List Stamp, other.Perm (before ++ stamp.rows ++ after) →
          screen.drawAll other = screen.drawAll stamps) ∧
      (let once := screen.drawAll stamps
        let twice := once.1.drawAll stamps
        twice.1 = screen ∧
          ((once.2 || twice.2) = true ↔ ∃ stamp ∈ stamps, ∃ bits ∈ stamp.sprite, bits ≠ 0)) := by
  refine ⟨?_, ?_, ?_⟩
  · intro other hother
    exact drawAll_eq_of_perm screen (hother.flatMap_right _)
  · rintro before stamp after rfl other hother
    apply drawAll_eq_of_perm
    refine (hother.flatMap_right _).trans (.of_eq ?_)
    simp [flatMap_points_rows]
  · intro once twice
    constructor
    · apply ext_isLit
      intro point
      rw [isLit_drawAll, isLit_drawAll, Bool.xor_assoc, Bool.xor_self, Bool.xor_false]
    · have htwice : (once.2 || twice.2) = (screen.drawAll (stamps ++ stamps)).2 := by
        rw [drawAll_append]
      rw [htwice, drawAll_hit_iff, ← exists_count_pos_iff]
      apply exists_congr
      intro point
      rw [List.flatMap_append, List.count_append]
      omega

/-- Two bars that cross in a lit pixel. The bar that is drawn first hits the pixel and the other one
does not, so that either flag depends on the order; the screens and the flags of both do not, nor do
they when the tall bar, which goes around the edge of the screen, is drawn row by row from
below. -/
theorem order_of_drawing_does_not_matter_crossing :
    let screen := (blank.drawRow 62 1 0x80).1
    let wide : Stamp := { x := 60, y := 1, sprite := [0xFF] }
    let tall : Stamp := { x := 62, y := 255, sprite := [0x80, 0x80, 0x80] }
    (screen.drawAll [wide]).2 = true ∧ ((screen.drawAll [tall]).1.drawAll [wide]).2 = false ∧
      screen.drawAll [wide, tall] = screen.drawAll [tall, wide] ∧
      screen.drawAll (wide :: tall.rows.reverse) = screen.drawAll [wide, tall] ∧
      ((screen.drawAll [wide, tall]).1.drawAll [wide, tall]).1 = screen := by
  intro screen wide tall
  have hflags : (screen.drawAll [wide]).2 = true ∧
      ((screen.drawAll [tall]).1.drawAll [wide]).2 = false := by
    decide +kernel
  obtain ⟨hfirst, hsecond⟩ := hflags
  obtain ⟨hperm, hrows, htwice, -⟩ := order_of_drawing_does_not_matter screen [wide, tall]
  refine ⟨hfirst, hsecond, (hperm [tall, wide] (.swap wide tall [])).symm, ?_, htwice⟩
  apply hrows [wide] tall [] rfl
  rw [List.append_nil]
  exact (List.reverse_perm tall.rows).cons wide

end Screen

end Chip8
